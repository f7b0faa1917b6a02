import R5900.BitField
import R5900.Main
import R5900.Word.View
import R5900.Proofs.Arithmetic
import R5900.Proofs.Device.Access
import R5900.Proofs.Bus.Access
import R5900.Proofs.Action
import R5900.Proofs.Execute.Instruction
import R5900.Proofs.Execute.Step
import R5900.Proofs.Execute.DelaySlot
import R5900.Proofs.Device.Timer
import R5900.Proofs.Simulation.Cycle
import R5900.Proofs.Schedule
import R5900.Proofs.Simulation.Driver
import R5900.Proofs.Schedule.Recurrence
import R5900.Proofs.Simulation.Run
import R5900.Proofs.BitField
import R5900.Proofs.SystemControl
import R5900.Proofs.Postcondition
import R5900.Proofs.Execute.Delivery
import R5900.Proofs.Word.SignExtend
import R5900.Proofs.Execute.WordProgram
import R5900.Proofs.Device.Intc
import R5900.Proofs.Bus.Intc
import R5900.Proofs.Execute.Store
import R5900.Proofs.Execute.PartialStore
import R5900.Proofs.Execute.Interrupt
import R5900.Proofs.Simulation.Instructions
import R5900.Proofs.Simulation.InterruptLine
import R5900.Proofs.Device.TimerInterrupt
import R5900.Proofs.Simulation.TimerInterrupt
import R5900.Proofs.Device.NarrowWrite
import R5900.Proofs.Bytes
import R5900.Proofs.Cell
import R5900.Proofs.VirtualMemory
import R5900.Proofs.Device.WellFormed
import R5900.Proofs.Execute.WellFormed
import R5900.Proofs.Simulation.WellFormed
import R5900.Proofs.Schedule.Timeline
import R5900.Proofs.SystemControl.ExceptionReturn
import R5900.Proofs.Bus.WordRead
import R5900.Proofs.Register
import R5900.Proofs.Execute.Branch
import R5900.Proofs.Execute.Transparency
import R5900.Proofs.Execute.ResumeAddress
import R5900.Proofs.Execute.CycleCounter
import R5900.Proofs.Bus.StandardMap
import R5900.Proofs.Bus.RegisterMap
import R5900.Proofs.Device.Bank
import R5900.Proofs.Device.BitAction
import R5900.Proofs.Bus.Operation
import R5900.Proofs.Bus.BitHistory
import R5900.Proofs.ByteMap
import R5900.Proofs.Device.HeldBytes
import R5900.Proofs.Bus.HeldBytes
import R5900.Proofs.Device.Registers
import R5900.Proofs.Bus.Aliasing
import R5900.Proofs.Device.Handshake
import R5900.Proofs.Execute.PartialAccess
import R5900.Proofs.Execute.UnalignedLoad
import R5900.Proofs.Execute.UnalignedStore
import R5900.Proofs.Execute.Footprint
import R5900.Proofs.Execute.WriteSet
import R5900.Proofs.Execute.Pipeline
import R5900.Proofs.Execute.Accumulator
import R5900.Proofs.Execute.Division
import R5900.Proofs.SystemControl.Counting
import R5900.Proofs.Execute.BranchTarget
import R5900.Proofs.Device.TimerCount
import R5900.Proofs.Device.TimerHistory
import R5900.Proofs.Device.Enumeration
import R5900.Proofs.Execute.NoOperation
import R5900.Proofs.Elf
import R5900.Proofs.Listing
import R5900.Proofs.Load
import R5900.Proofs.BitRange
import R5900.Proofs.Execute.SignCount
import R5900.Proofs.Text
import R5900.Proofs.Instruction.Field
import R5900.Proofs.Instruction.Kind
import R5900.Proofs.Instruction.Encoder
import R5900.Proofs.Instruction.Decoding
import R5900.Proofs.Instruction.Text

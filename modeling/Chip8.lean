import Chip8.CallStack
import Chip8.Countdown
import Chip8.Emulator.Basic
import Chip8.Emulator.Call
import Chip8.Entropy
import Chip8.Fault
import Chip8.Glyph
import Chip8.Instruction.Basic
import Chip8.Instruction.Decode
import Chip8.Instruction.Execution
import Chip8.Instruction.Mnemonic
import Chip8.Keypad
import Chip8.Layout
import Chip8.Log
import Chip8.Machine.Basic
import Chip8.Machine.Notice
import Chip8.Machine.Program
import Chip8.Machine.Run
import Chip8.Machine.Step
import Chip8.Main
import Chip8.Memory
import Chip8.Nibble
import Chip8.Numeral.Hex
import Chip8.Numeral.Unsigned
import Chip8.Opcode
import Chip8.Routine.Basic
import Chip8.Routine.Device
import Chip8.Routine.Flow
import Chip8.Routine.Register
import Chip8.Routine.Table
import Chip8.Runner.Entry
import Chip8.Runner.Invocation
import Chip8.Runner.Report
import Chip8.Runner.Session
import Chip8.Runner.Settings
import Chip8.Screen.Basic
import Chip8.Screen.Panel
import Chip8.Screen.Sprite
import Chip8.Screen.Text
import Chip8.Proofs.Arithmetic
import Chip8.Proofs.Meaning
import Chip8.Proofs.Effect
import Chip8.Emulator.History
import Chip8.Proofs.Access
import Chip8.Proofs.Footprint
import Chip8.Proofs.Agreement
import Chip8.Proofs.Bounds
import Chip8.Proofs.Failure
import Chip8.Proofs.Subroutine
import Chip8.Emulator.Delivery
import Chip8.Emulator.Moment
import Chip8.Proofs.Noninterference
import Chip8.Proofs.Painting
import Chip8.Proofs.Acknowledgement
import Chip8.Proofs.Timers
import Chip8.Proofs.Buzzer
import Chip8.Proofs.Storage
import Chip8.Proofs.Mnemonics
import Chip8.Proofs.Pacing
import Chip8.Proofs.Reporting
import Chip8.Proofs.Dependence
import Chip8.Proofs.Lockstep
import Chip8.Machine.Operation
import Chip8.Proofs.Leftovers
import Chip8.Proofs.Trace
import Chip8.Proofs.View
import Chip8.Proofs.Restart
import Chip8.Proofs.Writes
import Chip8.Proofs.Coverage
import Chip8.Proofs.Overlay
import Chip8.Proofs.Calculation
import Chip8.Proofs.Redraw
import Chip8.Proofs.Transfer
import Chip8.Proofs.Waiting
import Chip8.Proofs.Loading
import Chip8.Proofs.Rendering
import Chip8.Proofs.Spelling
import Chip8.Proofs.Validation
import Chip8.Proofs.Routing
import Chip8.Proofs.HeldKeys
import Chip8.Proofs.Coherence

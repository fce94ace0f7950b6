import Chip8.Main
import Chip8.Proofs.Scheduler.Law
import Chip8.Proofs.Scheduler.Shown
import Chip8.Proofs.Picture
import Chip8.Proofs.Memory.Storing
import Chip8.Proofs.Machine.Context
import Chip8.Proofs.Machine.Interleaving
import Chip8.Proofs.Machine.Live
import Chip8.Proofs.Machine.Reachable
import Chip8.Proofs.Machine.Load
import Chip8.Proofs.Scheduler.Limit
import Chip8.Proofs.Scheduler.GoesOn
import Chip8.Proofs.Scheduler.Advance
import Chip8.Proofs.Scheduler.Halt
import Chip8.Proofs.Machine.Counter
import Chip8.Proofs.Machine.Stuck
import Chip8.Proofs.Scheduler.Parts
import Chip8.Proofs.Scheduler.Idle
import Chip8.Proofs.Scheduler.Marks
import Chip8.Proofs.Scheduler.Record
import Chip8.Proofs.Scheduler.Frames
import Chip8.Proofs.Scheduler.Fault
import Chip8.Proofs.Scheduler.Steps
import Chip8.Proofs.InputTrace.Replay
import Chip8.Proofs.InputTrace.Grammar
import Chip8.Proofs.InputTrace.RoundTrip
import Chip8.Proofs.Machine.Calls
import Chip8.Proofs.Machine.KeyWait
import Chip8.Proofs.Machine.Sound
import Chip8.Proofs.Machine.Writes
import Chip8.Proofs.Machine.Draw
import Chip8.Proofs.Machine.Dialect
import Chip8.Proofs.Scheduler.Rates
import Chip8.Proofs.CommandLine.Exit
import Chip8.Proofs.Memory.Bounds
import Chip8.Proofs.Machine.Arithmetic
import Chip8.Proofs.Machine.Flow
import Chip8.Proofs.Machine.Transfer
import Chip8.Proofs.Screen.Parity
import Chip8.Proofs.Readout
import Chip8.Proofs.Display.Depiction
import Chip8.Proofs.Text.Lines
import Chip8.Proofs.Scheduler.CatchUp

import Chip8.Word
import Chip8.Operands
import Chip8.Instruction.Standard
import Chip8.Listing
import Chip8.Memory.Bus
import Chip8.CallStack
import Chip8.Keypad
import Chip8.Random
import Chip8.Screen.Display
import Chip8.Machine.Create
import Chip8.Machine.Cycle
import Chip8.Machine.Summary
import Chip8.Trace
import Chip8.Pacer
import Chip8.Frontend.Terminal
import Chip8.Frontend.Window
import Chip8.CommandLine.Command
import Chip8.Main
import Chip8.Proofs.Memory.Layout
import Chip8.Proofs.Memory.Map
import Chip8.Proofs.Machine.Boot
import Chip8.Proofs.CallStack
import Chip8.Proofs.Machine.Routine
import Chip8.Proofs.Machine.Cycle
import Chip8.Proofs.Instruction.Pattern
import Chip8.Proofs.Instruction.Table
import Chip8.Proofs.Instruction.Decode
import Chip8.Proofs.Machine.FaultDomain
import Chip8.Proofs.Machine.Bounds
import Chip8.Proofs.Machine.Event
import Chip8.Proofs.Machine.Reachable
import Chip8.Proofs.Machine.CallReturn
import Chip8.Proofs.Trace
import Chip8.Proofs.Pacer.Observer
import Chip8.Proofs.Pacer.Record
import Chip8.Proofs.Machine.Draw
import Chip8.Proofs.Machine.WriteSet
import Chip8.Proofs.Machine.Timer
import Chip8.Proofs.Memory.Access
import Chip8.Proofs.Pacer.Frames
import Chip8.Proofs.Machine.Surface
import Chip8.Proofs.Pacer.Interchange
import Chip8.Proofs.Instruction.Text
import Chip8.Proofs.Machine.Program
import Chip8.Proofs.Listing
import Chip8.Proofs.Machine.Effects
import Chip8.Proofs.Machine.Advance
import Chip8.Proofs.Machine.Processor
import Chip8.Proofs.Pacer.Operation
import Chip8.Proofs.Pacer.Renewal
import Chip8.Proofs.Instruction.Registration
import Chip8.Proofs.Instruction.Rearrangement
import Chip8.Proofs.Instruction.Form
import Chip8.Proofs.Listing.Recovery
import Chip8.Proofs.Screen.Visits
import Chip8.Proofs.Screen.LitCount
import Chip8.Proofs.Machine.Arithmetic
import Chip8.Proofs.Machine.Flow
import Chip8.Proofs.Machine.Transfer
import Chip8.Proofs.Memory.StoredWord
import Chip8.Proofs.Memory.Image
import Chip8.Proofs.Machine.Loading
import Chip8.Proofs.Screen.Frame
import Chip8.Proofs.Screen.Terminal
import Chip8.Proofs.Screen.Window
import Chip8.Proofs.Keypad
import Chip8.Proofs.Keypad.Reset
import Chip8.Proofs.Random
import Chip8.Proofs.Pacer.Unheard
import Chip8.Proofs.Operands.Masks
import Chip8.Proofs.Instruction.Spelling
import Chip8.Proofs.Memory.ImageBytes
import Chip8.Proofs.Frontend.Session
import Chip8.Proofs.Frontend.Terminal
import Chip8.Proofs.Debug.Setting
import Chip8.Proofs.Debug.Switch

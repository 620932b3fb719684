import Lc3.Console.Scripted
import Lc3.Instruction.Encoding
import Lc3.Keyboard
import Lc3.Launch.StoredFiles
import Lc3.Main
import Lc3.Proofs.Architecture.Placement
import Lc3.Proofs.Machine.Faults
import Lc3.Proofs.Session.Halting
import Lc3.Proofs.Session.Loading
import Lc3.Text.Utf8
import Lc3.Proofs.Machine.StepCases
import Lc3.Proofs.Session.History
import Lc3.Proofs.Session.Conditions
import Lc3.Proofs.Session.Contents
import Lc3.Proofs.Console.InputQueue
import Lc3.Proofs.Session.Intake
import Lc3.Proofs.Session.Conservation
import Lc3.Proofs.Console.Alike
import Lc3.Proofs.Machine.Uniform
import Lc3.Proofs.Console.Faithful
import Lc3.Proofs.Session.Alike
import Lc3.Proofs.Console.Waiting
import Lc3.Proofs.Machine.Polling
import Lc3.Proofs.Session.Flushing
import Lc3.Proofs.Architecture.Agreement
import Lc3.Proofs.Console.Scanning
import Lc3.Proofs.Session.Footprint
import Lc3.Proofs.Launch.Arguments
import Lc3.Proofs.Launch.Batch
import Lc3.Proofs.Session.LateInput
import Lc3.Proofs.Session.ReturnAddress
import Lc3.Proofs.Console.Accepting
import Lc3.Proofs.Session.Program
import Lc3.Proofs.Program.Echo
import Lc3.Proofs.Program.BusyWait
import Lc3.Proofs.Image.Format
import Lc3.Proofs.Machine.Strings
import Lc3.Proofs.Checked.Host
import Lc3.Proofs.Launch.Expansion
import Lc3.Proofs.Word.Signed
import Lc3.Proofs.Instruction.Decoding
import Lc3.Proofs.Instruction.Disassembly
import Lc3.Proofs.Instruction.Encoding
import Lc3.Proofs.Session.Trace
import Lc3.Proofs.Settings.TakenOnce

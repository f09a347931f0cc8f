import HackToolchain.Main
import HackToolchain.Proofs.Program.Denotation
import HackToolchain.Proofs.Program.Passes
import HackToolchain.Proofs.Instruction.Coding
import HackToolchain.Proofs.Source.ComputeText
import HackToolchain.Proofs.Text.Layout
import HackToolchain.Proofs.Disassembly.Canonical
import HackToolchain.Proofs.Disassembly.Reassembly
import HackToolchain.Proofs.Disassembly.NormalForm
import HackToolchain.Proofs.Source.Files
import HackToolchain.Proofs.EntryPoints
import HackToolchain.Proofs.Program.History
import HackToolchain.Proofs.Directory.Writing
import HackToolchain.Proofs.Session.Calls
import HackToolchain.Proofs.Program.EarlyEnd
import HackToolchain.Proofs.Session.Output
import HackToolchain.Proofs.Session.Leftovers
import HackToolchain.Proofs.Program.Faults
import HackToolchain.Proofs.Source.Shape
import HackToolchain.Proofs.Acceptance
import HackToolchain.Proofs.Source.Columns
import HackToolchain.Proofs.Undiagnosed
import HackToolchain.Proofs.Places
import HackToolchain.Proofs.Symbol.FileReading
import HackToolchain.Proofs.Program.Variables
import HackToolchain.Proofs.Session.SymbolFile
import HackToolchain.Proofs.Program.WordFormat
import HackToolchain.Proofs.Program.Agreement
import HackToolchain.Proofs.Program.Invariant
import HackToolchain.Proofs.Program.Renaming
import HackToolchain.Proofs.Program.Extension
import HackToolchain.Proofs.Program.Placement
import HackToolchain.Proofs.Source.Reduction
import HackToolchain.Proofs.CommandLine.Effects
import HackToolchain.Proofs.Directory.NormalPath
import HackToolchain.Proofs.CommandLine.Conventions
import HackToolchain.Proofs.CommandLine.RoundTrip
import HackToolchain.Proofs.Source.ViablePrefix
import HackToolchain.Proofs.Source.Printing
import HackToolchain.Proofs.Disassembly.SymbolicText
import HackToolchain.Proofs.Disassembly.RunVariables
import HackToolchain.Proofs.Program.LabelReference
import HackToolchain.Symbol.Requests
import HackToolchain.Proofs.Symbol.TableSession
import HackToolchain.Proofs.Symbol.Allocation
import HackToolchain.Proofs.Instruction.AddressWord
import HackToolchain.Proofs.Disassembly.Sequence
import HackToolchain.Proofs.Disassembly.FaithfulNames
import HackToolchain.Proofs.Program.TableUse
import HackToolchain.Proofs.EnvironmentSettings

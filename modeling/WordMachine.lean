import WordMachine.CommandLine.Assembler
import WordMachine.CommandLine.Simulator
import WordMachine.Image.HexRecord
import WordMachine.Image.Listing
import WordMachine.Lint
import WordMachine.Machine.Run
import WordMachine.Main
import WordMachine.Proofs.CommandLine.Assembler
import WordMachine.Proofs.CommandLine.Simulator
import WordMachine.Proofs.Image.Disassembly
import WordMachine.Proofs.Image.Execution
import WordMachine.Proofs.Image.Extent
import WordMachine.Proofs.Image.RecordFormat
import WordMachine.Proofs.Instruction.Encodable
import WordMachine.Proofs.Instruction.LetterCase
import WordMachine.Proofs.Lint.Comma
import WordMachine.Proofs.Lint.ProgramCounter
import WordMachine.Proofs.Lint.Redeclaration
import WordMachine.Proofs.Lint.Safety
import WordMachine.Proofs.Machine.Failure
import WordMachine.Proofs.Machine.Flags
import WordMachine.Proofs.Machine.InstructionSet
import WordMachine.Proofs.Machine.Isolation
import WordMachine.Proofs.Machine.Layout
import WordMachine.Proofs.Machine.Limit
import WordMachine.Proofs.Machine.Memory
import WordMachine.Proofs.Machine.Shift
import WordMachine.Proofs.Source.Number
import WordMachine.Proofs.Source.Register
import WordMachine.Proofs.Source.Tokens
import WordMachine.Settings.Json

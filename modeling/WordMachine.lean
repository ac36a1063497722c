import WordMachine.Abort
import WordMachine.Assembly.Basic
import WordMachine.Assembly.Emission
import WordMachine.Assembly.Files
import WordMachine.Assembly.Layout
import WordMachine.CommandLine.Basic
import WordMachine.CommandLine.Options
import WordMachine.Console.Basic
import WordMachine.Console.Command
import WordMachine.Failure
import WordMachine.Files.Path
import WordMachine.Files.Reading
import WordMachine.Files.System
import WordMachine.Files.Tree
import WordMachine.Instruction.Basic
import WordMachine.Instruction.Encode
import WordMachine.Listing
import WordMachine.LoadImage
import WordMachine.Machine.Basic
import WordMachine.Machine.Execution
import WordMachine.Machine.Memory
import WordMachine.Machine.Registers
import WordMachine.Machine.Run
import WordMachine.Machine.Status
import WordMachine.Main
import WordMachine.Notebook
import WordMachine.Numeral.Reading
import WordMachine.Proofs.Aligned
import WordMachine.Proofs.Assembly.AllOrNothing
import WordMachine.Proofs.Assembly.Appending
import WordMachine.Proofs.Assembly.Counting
import WordMachine.Proofs.Assembly.Determined
import WordMachine.Proofs.Assembly.Disassembled
import WordMachine.Proofs.Assembly.Execution
import WordMachine.Proofs.Assembly.LoadText
import WordMachine.Proofs.Assembly.Locating
import WordMachine.Proofs.Assembly.OutputFiles
import WordMachine.Proofs.Assembly.Renaming
import WordMachine.Proofs.Assembly.Restating
import WordMachine.Proofs.Assembly.Rewriting
import WordMachine.Proofs.Assembly.Settled
import WordMachine.Proofs.Assembly.StartAddress
import WordMachine.Proofs.Assembly.Statements
import WordMachine.Proofs.Assembly.Symbols
import WordMachine.Proofs.Assembly.Undoing
import WordMachine.Proofs.Assembly.Values
import WordMachine.Proofs.CommandLine.FailedWrite
import WordMachine.Proofs.Console.Answering
import WordMachine.Proofs.Console.Assigning
import WordMachine.Proofs.Console.Debugging
import WordMachine.Proofs.Console.Depositing
import WordMachine.Proofs.Console.Failing
import WordMachine.Proofs.Console.Forgetting
import WordMachine.Proofs.Console.Invariant
import WordMachine.Proofs.Console.Loading
import WordMachine.Proofs.Console.Naming
import WordMachine.Proofs.Console.Starting
import WordMachine.Proofs.Console.Stopping
import WordMachine.Proofs.Console.Storing
import WordMachine.Proofs.Console.Tracing
import WordMachine.Proofs.Files.Differing
import WordMachine.Proofs.Files.Directories
import WordMachine.Proofs.Files.Guarded
import WordMachine.Proofs.Files.Paths
import WordMachine.Proofs.Files.ReadFailure
import WordMachine.Proofs.Files.SiblingListing
import WordMachine.Proofs.Files.System
import WordMachine.Proofs.Files.Writing
import WordMachine.Proofs.Instruction.Accepting
import WordMachine.Proofs.Instruction.Disassembly
import WordMachine.Proofs.Instruction.Encoding
import WordMachine.Proofs.Instruction.Fields
import WordMachine.Proofs.Listing.Agreement
import WordMachine.Proofs.Listing.Rows
import WordMachine.Proofs.LoadImage.Appending
import WordMachine.Proofs.LoadImage.Formats
import WordMachine.Proofs.LoadImage.Reading
import WordMachine.Proofs.Machine.Demand
import WordMachine.Proofs.Machine.Execution
import WordMachine.Proofs.Machine.FaultConditions
import WordMachine.Proofs.Machine.Faulting
import WordMachine.Proofs.Machine.Invariant
import WordMachine.Proofs.Machine.Running
import WordMachine.Proofs.Machine.Tracing
import WordMachine.Proofs.Machine.Visible
import WordMachine.Proofs.Notebook.Dispatch
import WordMachine.Proofs.Notebook.SourceCell
import WordMachine.Proofs.Numeral.Columns
import WordMachine.Proofs.Numeral.Decimal
import WordMachine.Proofs.Numeral.Written
import WordMachine.Proofs.Results
import WordMachine.Proofs.SourceLine.Grammar
import WordMachine.Proofs.SourceLine.Reading
import WordMachine.Proofs.SourceLine.Renaming
import WordMachine.Proofs.SourceLine.Writing
import WordMachine.Proofs.Text.Casing
import WordMachine.Proofs.Text.Pieces
import WordMachine.Proofs.Text.Spacing
import WordMachine.Proofs.Text.Spread
import WordMachine.Proofs.Text.Words
import WordMachine.SourceLine
import WordMachine.SymbolTable
import WordMachine.Text.Basic
import WordMachine.Text.Lines
import WordMachine.Text.LowerCase
import WordMachine.Text.Quoted
import WordMachine.Text.UpperCase
import WordMachine.Text.Utf8
import WordMachine.Text.Utf8.RoundTrip
import WordMachine.Word.Truncation

import TwoPass.Main
import TwoPass.Proofs.Bindings
import TwoPass.Proofs.Lockstep
import TwoPass.Proofs.Resolution
import TwoPass.Proofs.Refusals
import TwoPass.Proofs.Warnings
import TwoPass.Proofs.Sections
import TwoPass.Proofs.Comparison
import TwoPass.Proofs.Blocks
import TwoPass.Proofs.Numerals
import TwoPass.Proofs.Words
import TwoPass.Proofs.Reassembly
import TwoPass.Proofs.Reading
import TwoPass.Proofs.Sessions
import TwoPass.Proofs.Diagnostics
import TwoPass.Proofs.Faults
import TwoPass.Proofs.Histories
import TwoPass.Proofs.Correspondence
import TwoPass.Proofs.CorrespondingWords
import TwoPass.Proofs.Relocation
import TwoPass.Proofs.Renaming
import TwoPass.Proofs.Edits
import TwoPass.Proofs.CodeLines
import TwoPass.Proofs.Deliveries
import TwoPass.Proofs.LineBreaks
import TwoPass.Proofs.Commands
import TwoPass.Proofs.Answers
import TwoPass.Proofs.AddressSpace
import TwoPass.Proofs.WarningTexts
import TwoPass.Proofs.Grammar
import TwoPass.Proofs.Rows
import TwoPass.Proofs.Renderings
import TwoPass.Proofs.WordLayout
import TwoPass.Proofs.TableHistories
import TwoPass.Proofs.Scanning
import TwoPass.Proofs.Rereading
import TwoPass.Proofs.Positional
import TwoPass.Proofs.BinaryFields
import TwoPass.Proofs.Literals
import TwoPass.Proofs.Decoding
import TwoPass.Proofs.SymbolFile

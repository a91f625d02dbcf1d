import FormLowering.Code.Printer
import FormLowering.Form.Extension
import FormLowering.Proofs.Meaning.Agreement
import FormLowering.Proofs.Ty.Verdict
import FormLowering.Proofs.Execution.Memory
import FormLowering.Proofs.Code.Construction
import FormLowering.Proofs.Form.Change
import FormLowering.Proofs.Unit.Namespace
import FormLowering.Proofs.Form.Modes
import FormLowering.Proofs.Form.Independence
import FormLowering.Proofs.Unit.Independence
import FormLowering.Proofs.Report.Transaction
import FormLowering.Proofs.Ty.Naming
import FormLowering.Proofs.Unit.Integers
import FormLowering.Proofs.Unit.Appending
import FormLowering.Proofs.Number.Numeral
import FormLowering.Proofs.Form.IntegerLiteral
import FormLowering.Proofs.Form.TypeNotation
import FormLowering.Proofs.Execution.Undisturbed
import FormLowering.Proofs.Form.Escapes
import FormLowering.Proofs.Form.StringLiteral
import FormLowering.Proofs.Form.Hints
import FormLowering.Proofs.Report.Position
import FormLowering.Proofs.Execution.Addressing
import FormLowering.Proofs.Unit.Scoping
import FormLowering.Proofs.Form.Assignments
import FormLowering.Proofs.Number.Spelling
import FormLowering.Proofs.Form.Overrides
import FormLowering.Proofs.Code.Readback
import FormLowering.Proofs.Source.Hull

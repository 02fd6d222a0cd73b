import Combinatory.CommandLine.Arguments
import Combinatory.CommandLine.Command
import Combinatory.CommandLine.TruthTable
import Combinatory.Datum
import Combinatory.Evaluation.Effect
import Combinatory.Evaluation.Selector
import Combinatory.Evaluation.Value
import Combinatory.Floating.Basic
import Combinatory.Floating.Decimal
import Combinatory.Lambda.Basic
import Combinatory.Lambda.Compile
import Combinatory.Lambda.Open
import Combinatory.Lambda.Session
import Combinatory.Lambda.Signature
import Combinatory.Logging.CallLog
import Combinatory.Logging.Indentation
import Combinatory.Main
import Combinatory.Memo.Basic
import Combinatory.Memo.Function
import Combinatory.Memo.Recursion
import Combinatory.Program.Basic
import Combinatory.Program.Run
import Combinatory.Proofs.Evaluation.Connectives
import Combinatory.Proofs.Evaluation.Effect
import Combinatory.Proofs.Evaluation.Laws
import Combinatory.Proofs.Evaluation.Parametricity
import Combinatory.Proofs.Evaluation.Selection
import Combinatory.Proofs.Evaluation.Stateless
import Combinatory.Proofs.Evaluation.Totality
import Combinatory.Proofs.Lambda.Abstraction
import Combinatory.Proofs.Lambda.Alike
import Combinatory.Proofs.Lambda.Alongside
import Combinatory.Proofs.Lambda.Behaviour
import Combinatory.Proofs.Lambda.Caching
import Combinatory.Proofs.Lambda.Calculus
import Combinatory.Proofs.Lambda.Combinators
import Combinatory.Proofs.Lambda.Compilation
import Combinatory.Proofs.Lambda.Conversion
import Combinatory.Proofs.Lambda.Draft
import Combinatory.Proofs.Lambda.Drafting
import Combinatory.Proofs.Lambda.Following
import Combinatory.Proofs.Lambda.Hygiene
import Combinatory.Proofs.Lambda.InStep
import Combinatory.Proofs.Lambda.Meaning
import Combinatory.Proofs.Lambda.Preservation
import Combinatory.Proofs.Lambda.Reading
import Combinatory.Proofs.Lambda.Refusal
import Combinatory.Proofs.Lambda.Renaming
import Combinatory.Proofs.Lambda.Settlement
import Combinatory.Proofs.Lambda.Settling
import Combinatory.Proofs.Lambda.Simulation
import Combinatory.Proofs.Lambda.Symbolic
import Combinatory.Proofs.Lambda.Typability
import Combinatory.Proofs.Lambda.Typing
import Combinatory.Proofs.Logging.Indentation
import Combinatory.Proofs.Memo.Recursion
import Combinatory.Proofs.Program.Choice
import Combinatory.Proofs.Program.Completion
import Combinatory.Proofs.Program.Formula
import Combinatory.Proofs.Program.Progress
import Combinatory.Proofs.Term.Blame
import Combinatory.Proofs.Term.Building
import Combinatory.Proofs.Term.Checking
import Combinatory.Proofs.Term.Contraction
import Combinatory.Proofs.Term.Drawing
import Combinatory.Proofs.Term.Genuine
import Combinatory.Proofs.Term.Identity
import Combinatory.Proofs.Term.Keeping
import Combinatory.Proofs.Term.Principal
import Combinatory.Proofs.Term.Remembering
import Combinatory.Proofs.Term.Sharing
import Combinatory.Proofs.Term.Transparency
import Combinatory.Proofs.Term.WrittenForm
import Combinatory.Proofs.Ty.Acyclic
import Combinatory.Proofs.Ty.Equations
import Combinatory.Proofs.Ty.Freshness
import Combinatory.Proofs.Ty.Instantiation
import Combinatory.Proofs.Ty.Matching
import Combinatory.Proofs.Ty.MostGeneral
import Combinatory.Proofs.Ty.Renaming
import Combinatory.Proofs.Ty.Scheme
import Combinatory.Proofs.Ty.SearchDepth
import Combinatory.Proofs.Ty.Termination
import Combinatory.Proofs.Ty.Traversal
import Combinatory.Proofs.Ty.Unification
import Combinatory.Proofs.Ty.Variant
import Combinatory.Proofs.Ty.WrittenForm
import Combinatory.Source
import Combinatory.Term.Basic
import Combinatory.Term.Library
import Combinatory.Term.Pool
import Combinatory.Term.Question
import Combinatory.Term.Raw
import Combinatory.Term.Registry
import Combinatory.Term.Typing
import Combinatory.Text.Printable
import Combinatory.Text.Quoted
import Combinatory.Ty.Basic
import Combinatory.Ty.Matching
import Combinatory.Ty.Name
import Combinatory.Ty.Printing
import Combinatory.Ty.Raw
import Combinatory.Ty.RawSubst
import Combinatory.Ty.Scheme
import Combinatory.Ty.Subst
import Combinatory.Ty.Unification

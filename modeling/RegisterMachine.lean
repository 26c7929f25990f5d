import RegisterMachine.Log
import RegisterMachine.Main
import RegisterMachine.Proofs.ReferenceAssembly
import RegisterMachine.Proofs.SourceSemantics
import RegisterMachine.Proofs.Step
import RegisterMachine.Proofs.SourceRefinement
import RegisterMachine.Proofs.WellFormed
import RegisterMachine.Proofs.EuclidRun
import RegisterMachine.Proofs.OperationRules
import RegisterMachine.Proofs.AssembledRun
import RegisterMachine.Proofs.FaultPhases
import RegisterMachine.Proofs.SequentialComposition
import RegisterMachine.Proofs.LargerDialects
import RegisterMachine.Proofs.AssemblySessions
import RegisterMachine.Proofs.CounterRange
import RegisterMachine.Proofs.BindingOrder
import RegisterMachine.Proofs.Declarations
import RegisterMachine.Proofs.StoredMachine
import RegisterMachine.Proofs.SubmissionForms
import RegisterMachine.Proofs.Resumption
import RegisterMachine.Proofs.Relabelling
import RegisterMachine.Proofs.RelabelledRun
import RegisterMachine.Proofs.AssemblyLog
import RegisterMachine.Proofs.RunLog
import RegisterMachine.Proofs.UnreadRegister
import RegisterMachine.Procedure
import RegisterMachine.Commands
import RegisterMachine.Proofs.ComparedJumps
import RegisterMachine.Proofs.ForwardPrograms
import RegisterMachine.Proofs.Atomicity
import RegisterMachine.Proofs.ExactChanges
import RegisterMachine.Proofs.UntakenJumps
import RegisterMachine.Proofs.Respelling
import RegisterMachine.Proofs.StraightArithmetic
import RegisterMachine.Proofs.ProductRun
import RegisterMachine.Proofs.NameOrder
import RegisterMachine.Proofs.LabelListing
import RegisterMachine.Proofs.NoBreakdown

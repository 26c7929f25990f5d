import RegisterMachine.Dialect
import RegisterMachine.Run

/-!
# Assembling programs

Assembly submits the invocations of a program one by one.  The dialect alone
decides what an invocation asks for (`Dialect.dispatch`): a register without
arguments asks for nothing, an instruction is queued, and an immediate operation
acts at once.  Assembly stops at the first invocation that is refused.

A program can be submitted directly, or by reference: then every register
argument is first looked up by itself, so that a wrong register is reported
before anything else about its invocation.
-/

namespace RegisterMachine

/-- What an accepted invocation asks for. -/
inductive Action where
  /-- Nothing. -/
  | ignore
  /-- An instruction is to be queued. -/
  | queue (instruction : Instruction)
  /-- An instruction is to be executed at once. -/
  | carryOut (instruction : Instruction)
deriving DecidableEq

namespace Action

def apply (action : Action) (machine : Machine) : Outcome :=
  match action with
  | ignore => .done machine
  | queue instruction => .done (machine.queue instruction)
  | carryOut instruction => instruction.execute machine

def events (action : Action) (invocation : Invocation) (machine : Machine) :
    List Event :=
  match action with
  | ignore => []
  | queue instruction => [.queued machine.queued instruction]
  | carryOut instruction =>
    .immediate invocation :: instruction.events machine

theorem machine_of_apply_failed {action : Action} {machine stopped : Machine}
    {fault : Fault} (failed : action.apply machine = .failed fault stopped) :
    stopped = machine := by
  cases action with
  | carryOut instruction => exact instruction.machine_of_execute_failed failed
  | _ => simp [apply] at failed

end Action

inductive Submission where
  /-- Invocations are submitted as they stand. -/
  | direct
  /-- The register arguments of an invocation are looked up first. -/
  | byReference
deriving DecidableEq

inductive Report where
  /-- The contents of the user registers at the end of the run. -/
  | results (cells : List Cell)
  /-- Assembly or the run failed. -/
  | fault (fault : Fault)
  /-- The run did not end within its budget. -/
  | unfinished
deriving DecidableEq

namespace Dialect

/-- The fault of the first register argument that is no reference to a
register. -/
def argumentFault? (dialect : Dialect) (arguments : List Argument) :
    Option Fault :=
  arguments.findSome? fun argument =>
    argument.registerName?.bind dialect.referenceFault?

def dispatchOperation (dialect : Dialect) (operation : Operation)
    (arguments : List Argument) : Except Fault Action := do
  operation.checkArity arguments.length
  match dialect.argumentFault? arguments with
  | some fault => .error fault
  | none =>
    match operation.kind with
    | .instruction => .ok (.queue ⟨operation, arguments⟩)
    | .immediate => .ok (.carryOut ⟨operation, arguments⟩)

/-- What an invocation asks for.  The first of these faults is reported: its
name is unknown, the number of its arguments is wrong, an argument is not a
register. -/
def dispatch (dialect : Dialect) (invocation : Invocation) :
    Except Fault Action :=
  match dialect.entry? invocation.name with
  | none => .error (.unknownName invocation.name)
  | some .register =>
    if invocation.arguments.isEmpty then .ok .ignore
    else
      .error (.wrongArity invocation.name (.exactly 0)
        invocation.arguments.length)
  | some (.operation operation) =>
    dialect.dispatchOperation operation invocation.arguments

/-- Submits one invocation to a machine under assembly. -/
def invoke (dialect : Dialect) (invocation : Invocation) (machine : Machine) :
    Outcome :=
  match dialect.dispatch invocation with
  | .ok action => action.apply machine
  | .error fault => .failed fault machine

/-- An invocation that is refused leaves the machine as it was. -/
theorem machine_of_invoke_failed {dialect : Dialect} {invocation : Invocation}
    {machine stopped : Machine} {fault : Fault}
    (failed : dialect.invoke invocation machine = .failed fault stopped) :
    stopped = machine := by
  unfold invoke at failed
  split at failed
  next => exact Action.machine_of_apply_failed failed
  next => exact (Outcome.failed.inj failed).2.symm

def invocationEvents (dialect : Dialect) (invocation : Invocation)
    (machine : Machine) : List Event :=
  match dialect.dispatch invocation with
  | .ok action => action.events invocation machine
  | .error _ => []

/-- The fault found while the arguments of an invocation are written down. -/
def submissionFault? (dialect : Dialect) (submission : Submission)
    (invocation : Invocation) : Option Fault :=
  match submission with
  | .direct => none
  | .byReference => dialect.argumentFault? invocation.arguments

def submit (dialect : Dialect) (submission : Submission)
    (invocation : Invocation) (machine : Machine) : Outcome :=
  match dialect.submissionFault? submission invocation with
  | some fault => .failed fault machine
  | none => dialect.invoke invocation machine

def submissionEvents (dialect : Dialect) (submission : Submission)
    (invocation : Invocation) (machine : Machine) : List Event :=
  match dialect.submissionFault? submission invocation with
  | some _ => []
  | none => dialect.invocationEvents invocation machine

/-- Submits the invocations of a program from left to right, up to the first one
that is refused. -/
def assembleOnto (dialect : Dialect) (submission : Submission)
    (machine : Machine) : List Invocation → Outcome
  | [] => .done machine
  | invocation :: rest =>
    (dialect.submit submission invocation machine).andThen fun next =>
      assembleOnto dialect submission next rest

/-- The machine with a program, ready to run, or the fault of the first
invocation that is refused. -/
def assembleBy (dialect : Dialect) (submission : Submission)
    (program : List Invocation) : Except Fault Machine :=
  (dialect.assembleOnto submission dialect.machine program).toExcept

/-- Assembles a program whose invocations are submitted as they stand. -/
def assemble (dialect : Dialect) (program : List Invocation) :
    Except Fault Machine :=
  dialect.assembleBy .direct program

theorem submit_eq_done_iff {dialect : Dialect} {submission : Submission}
    {invocation : Invocation} {machine next : Machine} :
    dialect.submit submission invocation machine = .done next ↔
      dialect.submissionFault? submission invocation = none ∧
        ∃ action, dialect.dispatch invocation = .ok action ∧
          action.apply machine = .done next := by
  unfold submit
  cases dialect.submissionFault? submission invocation with
  | some fault => simp
  | none =>
    rw [invoke]
    cases dialect.dispatch invocation <;> simp

theorem assembleOnto_cons_eq_done_iff {dialect : Dialect}
    {submission : Submission} {machine final : Machine}
    {invocation : Invocation} {rest : List Invocation} :
    dialect.assembleOnto submission machine (invocation :: rest) =
        .done final ↔
      ∃ next, dialect.submit submission invocation machine = .done next ∧
        dialect.assembleOnto submission next rest = .done final := by
  rw [assembleOnto]
  cases dialect.submit submission invocation machine <;> simp

theorem assembleBy_eq_ok_iff {dialect : Dialect} {submission : Submission}
    {program : List Invocation} {machine : Machine} :
    dialect.assembleBy submission program = .ok machine ↔
      dialect.assembleOnto submission dialect.machine program =
        .done machine := by
  rw [assembleBy]
  cases dialect.assembleOnto submission dialect.machine program <;>
    simp [Outcome.toExcept]

def report (dialect : Dialect) : Ending → Report
  | .halted machine => .results (dialect.results machine)
  | .faulted fault _ => .fault fault
  | .paused _ => .unfinished

/-- Assembles a program and runs it for at most `budget` steps. -/
def run (dialect : Dialect) (submission : Submission) (budget : Nat)
    (program : List Invocation) : Report :=
  match dialect.assembleBy submission program with
  | .ok machine => dialect.report (machine.run budget)
  | .error fault => .fault fault

end Dialect

end RegisterMachine

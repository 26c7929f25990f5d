import RegisterMachine.Proofs.Relabelling
import RegisterMachine.Proofs.StandardDialect

/-!
# Runs of relabelled programs

When the labels of a program are renamed injectively, the program is assembled
exactly when it was before, to the relabelled machine, and its run keeps pace
with the old one step by step.  The names of labels form a space of their own:
a label can take the name of a register, of an operation, or of a register that
the machine keeps for itself.
-/

namespace RegisterMachine

variable (newName : Name → Name)

def Invocation.relabel (line : Invocation) : Invocation :=
  ⟨line.name, line.arguments.map (.relabel newName)⟩

def Program.relabel (program : Program) : Program :=
  program.map (.relabel newName)

def Action.relabel : Action → Action
  | ignore => ignore
  | queue instruction => queue (instruction.relabel newName)
  | carryOut instruction => carryOut (instruction.relabel newName)

def Ending.relabel : Ending → Ending
  | halted machine => halted (machine.relabel newName)
  | faulted fault machine =>
    faulted (fault.relabel newName) (machine.relabel newName)
  | paused machine => paused (machine.relabel newName)

def Report.relabel : Report → Report
  | results cells => results (cells.map (.relabel newName))
  | fault cause => fault (cause.relabel newName)
  | unfinished => unfinished

@[simp]
theorem Ending.machine_relabel (ending : Ending) :
    (ending.relabel newName).machine = ending.machine.relabel newName := by
  cases ending <;> rfl

theorem Outcome.toExcept_relabel (outcome : Outcome) :
    (outcome.relabel newName).toExcept =
      relabelAnswer newName (.relabel newName) outcome.toExcept := by
  cases outcome <;> rfl

theorem Outcome.relabel_andThen {next otherNext : Machine → Outcome}
    (follows : ∀ machine, otherNext (machine.relabel newName) =
      (next machine).relabel newName) (outcome : Outcome) :
    (outcome.relabel newName).andThen otherNext =
      (outcome.andThen next).relabel newName := by
  cases outcome with
  | done machine => exact follows machine
  | failed fault machine => rfl

namespace Dialect

variable (dialect : Dialect)

/-- A dialect looks at the registers among the arguments only. -/
theorem argumentFault?_relabel (arguments : List Argument) :
    dialect.argumentFault? (arguments.map (.relabel newName)) =
      dialect.argumentFault? arguments := by
  simp [argumentFault?, List.findSome?_map, Function.comp_def]

theorem submissionFault?_relabel (submission : Submission)
    (line : Invocation) :
    dialect.submissionFault? submission (line.relabel newName) =
      dialect.submissionFault? submission line := by
  cases submission with
  | direct => rfl
  | byReference => exact dialect.argumentFault?_relabel newName line.arguments

/-- No fault of a register carries a label. -/
theorem relabel_of_argumentFault? {arguments : List Argument} {fault : Fault}
    (refused : dialect.argumentFault? arguments = some fault) :
    fault.relabel newName = fault := by
  obtain ⟨argument, _, found⟩ := List.exists_of_findSome?_eq_some refused
  obtain ⟨name, _, found⟩ := Option.bind_eq_some_iff.1 found
  unfold referenceFault? at found
  split at found <;> cases found <;> rfl

theorem dispatchOperation_relabel (operation : Operation)
    (arguments : List Argument) :
    dialect.dispatchOperation operation (arguments.map (.relabel newName)) =
      relabelAnswer newName (.relabel newName)
        (dialect.dispatchOperation operation arguments) := by
  rw [dispatchOperation, dispatchOperation, argumentFault?_relabel,
    List.length_map, Operation.checkArity]
  split
  next =>
    cases refused : dialect.argumentFault? arguments with
    | some fault =>
      exact congrArg Except.error
        (dialect.relabel_of_argumentFault? newName refused).symm
    | none => cases operation.kind <;> rfl
  next => rfl

theorem dispatch_relabel (line : Invocation) :
    dialect.dispatch (line.relabel newName) =
      relabelAnswer newName (.relabel newName) (dialect.dispatch line) := by
  obtain ⟨name, arguments⟩ := line
  simp only [dispatch, Invocation.relabel]
  cases dialect.entry? name with
  | none => rfl
  | some entry =>
    cases entry with
    | register =>
      cases arguments <;> simp [relabelAnswer, Action.relabel, Fault.relabel]
    | operation operation =>
      exact dialect.dispatchOperation_relabel newName operation arguments

/-- No label has been defined on the first machine. -/
theorem machine_relabel (isStandard : dialect.IsStandard) :
    dialect.machine.relabel newName = dialect.machine := by
  have zeroed (name : Name) :
      (Register.zero name).relabel newName = .zero name := rfl
  rw [machine_eq isStandard, Machine.relabel, Array.map_empty,
    RegisterBank.relabel, RegisterBank.initialBank, List.map_append,
    List.map_map]
  simp only [Function.comp_def, zeroed]
  rfl

theorem report_relabel (ending : Ending) :
    dialect.report (ending.relabel newName) =
      (dialect.report ending).relabel newName := by
  cases ending with
  | halted machine =>
    change Report.results (dialect.results (machine.relabel newName)) =
      .results ((dialect.results machine).map (.relabel newName))
    rw [results, results, List.map_map]
    refine congrArg Report.results (List.map_congr_left fun name _ => ?_)
    rw [Machine.read?_relabel, Function.comp_apply]
    cases machine.read? name <;> rfl
  | faulted fault machine => rfl
  | paused machine => rfl

end Dialect

section Injective

variable {newName : Name → Name} (injective : Function.Injective newName)
include injective

namespace Machine

theorem step_relabel (machine : Machine) :
    (machine.relabel newName).step = machine.step.map (.relabel newName) := by
  cases fetched : machine.fetch? with
  | none =>
    have stopped : (machine.relabel newName).fetch? = none := by
      rw [fetch?_relabel, fetched, Option.map_none]
    rw [step_eq_none_iff.2 stopped, step_eq_none_iff.2 fetched,
      Option.map_none]
  | some instruction =>
    have fetchedToo : (machine.relabel newName).fetch? =
        some (instruction.relabel newName) := by
      rw [fetch?_relabel, fetched, Option.map_some]
    rw [step_of_fetch? fetchedToo, instruction.effect_relabel injective,
      Effect.carryOut_relabel injective, step_of_fetch? fetched,
      Option.map_some]
    exact congrArg some
      (Outcome.relabel_andThen newName (fun _ => rfl) _)

/-- The run of a relabelled machine is the relabelled run. -/
theorem run_relabel (machine : Machine) (budget : Nat) :
    (machine.relabel newName).run budget =
      (machine.run budget).relabel newName := by
  induction budget generalizing machine with
  | zero => rfl
  | succ budget induction =>
    rw [run, step_relabel injective, run]
    cases machine.step with
    | none => rfl
    | some outcome =>
      cases outcome with
      | done next => exact induction next
      | failed fault stopped => rfl

end Machine

theorem Action.apply_relabel (action : Action) (machine : Machine) :
    (action.relabel newName).apply (machine.relabel newName) =
      (action.apply machine).relabel newName := by
  cases action with
  | ignore => rfl
  | queue instruction =>
    exact congrArg Outcome.done
      (Machine.relabel_queue newName machine instruction).symm
  | carryOut instruction => exact instruction.execute_relabel injective machine

namespace Dialect

theorem submit_relabel (dialect : Dialect) (submission : Submission)
    (line : Invocation) (machine : Machine) :
    dialect.submit submission (line.relabel newName)
        (machine.relabel newName) =
      (dialect.submit submission line machine).relabel newName := by
  rw [submit, submissionFault?_relabel, submit]
  cases refused : dialect.submissionFault? submission line with
  | some fault =>
    cases submission with
    | direct => cases refused
    | byReference =>
      have noLabel := dialect.relabel_of_argumentFault? newName refused
      simp only [Outcome.relabel, noLabel]
  | none =>
    simp only [invoke, dispatch_relabel]
    cases dialect.dispatch line with
    | ok action => exact action.apply_relabel injective machine
    | error fault => rfl

theorem assembleOnto_relabel (dialect : Dialect) (submission : Submission)
    (machine : Machine) (program : Program) :
    dialect.assembleOnto submission (machine.relabel newName)
        (program.relabel newName) =
      (dialect.assembleOnto submission machine program).relabel newName := by
  induction program generalizing machine with
  | nil => rfl
  | cons line rest induction =>
    calc
      _ = (dialect.submit submission (line.relabel newName)
            (machine.relabel newName)).andThen fun next =>
          dialect.assembleOnto submission next
            (Program.relabel newName rest) := rfl
      _ = ((dialect.submit submission line machine).relabel newName).andThen
          fun next => dialect.assembleOnto submission next
            (Program.relabel newName rest) := by
        rw [submit_relabel injective]
      _ = _ := Outcome.relabel_andThen newName induction _

theorem assembleBy_relabel {dialect : Dialect} (isStandard : dialect.IsStandard)
    (submission : Submission) (program : Program) :
    dialect.assembleBy submission (program.relabel newName) =
      relabelAnswer newName (.relabel newName)
        (dialect.assembleBy submission program) := by
  have relabelled := assembleOnto_relabel injective dialect submission
    dialect.machine program
  rw [machine_relabel newName dialect isStandard] at relabelled
  rw [assembleBy, relabelled, Outcome.toExcept_relabel, assembleBy]

theorem run_relabel {dialect : Dialect} (isStandard : dialect.IsStandard)
    (submission : Submission) (budget : Nat) (program : Program) :
    dialect.run submission budget (program.relabel newName) =
      (dialect.run submission budget program).relabel newName := by
  rw [run, assembleBy_relabel injective isStandard, run]
  cases dialect.assembleBy submission program with
  | ok machine =>
    simp only [relabelAnswer, Machine.run_relabel injective, report_relabel]
  | error fault => rfl

end Dialect

end Injective

namespace Dialect

/-- A program with injectively renamed labels is assembled exactly when it is
with the old ones, and otherwise refused for the relabelled fault.  Its
instructions are those of the old program with the labels renamed, and its label
table records the same addresses under the new names.  The two runs keep pace:
after any number of steps they have come to the same kind of ending, with the
same counter and the same contents of all registers, up to the names of labels
in cells and faults, and so they report the same. -/
theorem runs_alike_when_relabelled {registers : List Name} {dialect : Dialect}
    {newName : Name → Name}
    (declared : declare registers Operation.standard = .ok dialect)
    (injective : Function.Injective newName) (submission : Submission)
    (program : Program) :
    ((∃ other,
        dialect.assembleBy submission (program.relabel newName) = .ok other) ↔
      ∃ machine, dialect.assembleBy submission program = .ok machine) ∧
    (∀ fault, dialect.assembleBy submission program = .error fault →
      dialect.assembleBy submission (program.relabel newName) =
        .error (fault.relabel newName)) ∧
    (∀ machine other,
      dialect.assembleBy submission program = .ok machine →
      dialect.assembleBy submission (program.relabel newName) = .ok other →
      other.instructions = machine.instructions.map (.relabel newName) ∧
      (∀ name address, other.labelTable.get? name = some address ↔
        ∃ label, newName label = name ∧
          machine.labelTable.get? label = some address) ∧
      ∀ budget,
        other.run budget = (machine.run budget).relabel newName ∧
        (other.run budget).machine.counter =
          (machine.run budget).machine.counter ∧
        ∀ name, (other.run budget).machine.read? name =
          ((machine.run budget).machine.read? name).map (.relabel newName)) ∧
    ∀ budget, dialect.run submission budget (program.relabel newName) =
      (dialect.run submission budget program).relabel newName := by
  have isStandard := isStandard_of_declare declared
  have relabelled := assembleBy_relabel injective isStandard submission program
  refine ⟨?_, ?_, ?_, fun budget =>
    run_relabel injective isStandard submission budget program⟩
  · rw [relabelled]
    cases dialect.assembleBy submission program with
    | ok machine => simp [relabelAnswer]
    | error fault => simp [relabelAnswer]
  · intro fault refused
    rw [relabelled, refused, relabelAnswer]
  · intro machine other assembles otherAssembles
    rw [relabelled, assembles] at otherAssembles
    obtain rfl : machine.relabel newName = other :=
      Except.ok.inj otherAssembles
    refine ⟨rfl, fun name address => ?_, fun budget => ?_⟩
    · rw [Machine.labelTable_relabel]
      exact LabelTable.get?_relabel_eq_some_iff injective
    · have sameRun := Machine.run_relabel injective machine budget
      refine ⟨sameRun, ?_, fun name => ?_⟩
      · rw [sameRun, Ending.machine_relabel]
        rfl
      · rw [sameRun, Ending.machine_relabel, Machine.read?_relabel]

/-- Exchanges a name that is free for labels with that of a register, and
another one with that of the label register. -/
def exchanged (name : Name) : Name :=
  if name = "top" then "ax"
  else if name = "ax" then "top"
  else if name = "mark" then labelRegister
  else if name = labelRegister then "mark"
  else name

theorem exchanged_injective : Function.Injective exchanged := by
  intro first second same
  unfold exchanged labelRegister at same
  grind

/-- A loop that counts to two, and then computes with a label. -/
def countsThenFails : Program :=
  [⟨"mov", [.register "bx", .label "mark"]⟩, ⟨"label", [.label "top"]⟩,
    ⟨"inc", [.register "ax"]⟩, ⟨"cmp", [.register "ax", .literal 2]⟩,
    ⟨"jl", [.label "top"]⟩, ⟨"inc", [.register "bx"]⟩]

theorem countsThenFails_with_labels_exchanged :
    declare standardRegisters Operation.standard = .ok standard ∧
      Function.Injective exchanged ∧
      standard.run .direct 10 countsThenFails =
        .fault (.notANumber "bx" (.label "mark")) ∧
      standard.run .direct 10 (countsThenFails.relabel exchanged) =
        .fault (.notANumber "bx" (.label "labels")) ∧
      ∃ other, standard.assembleBy .direct (countsThenFails.relabel exchanged) =
          .ok other ∧
        other.labelTable.get? "ax" = some 0 ∧
        (other.run 5).machine.read? "ax" = some (.number 2) := by
  have declared :
      declare standardRegisters Operation.standard = .ok standard :=
    declare_eq_ok_iff.2 ⟨rfl, rfl⟩
  have fails : standard.run .direct 10 countsThenFails =
      .fault (.notANumber "bx" (.label "mark")) := by
    decide +kernel
  obtain ⟨sameAnswer, _, alike, sameReports⟩ := runs_alike_when_relabelled
    declared exchanged_injective .direct countsThenFails
  have assembles : standard.assembleBy .direct countsThenFails = .ok _ := rfl
  obtain ⟨other, otherAssembles⟩ := sameAnswer.2 ⟨_, assembles⟩
  obtain ⟨_, labels, runs⟩ := alike _ _ assembles otherAssembles
  have recorded : other.labelTable.get? "ax" = some 0 :=
    (labels "ax" 0).2 ⟨"top", by decide, by decide⟩
  have counted := (runs 5).2.2 "ax"
  refine ⟨declared, exchanged_injective, fails, ?_, other, otherAssembles,
    recorded, counted.trans (by decide +kernel)⟩
  rw [sameReports, fails]
  decide +kernel

end Dialect

end RegisterMachine

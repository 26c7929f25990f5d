import Mathlib.Data.List.Nodup
import Mathlib.Data.List.Pairwise
import RegisterMachine.Proofs.OperationRules
import RegisterMachine.Proofs.StandardDialect

/-!
# Programs in larger dialects

A program that is assembled in one dialect can be taken to any dialect that
declares the same registers and operations beside others, in whatever order, and
does the same there.  Names are distinct within a dialect, so what a name stands
for depends on membership alone.  The machines differ in the slots of their
registers, and one of them can lack the comparison register or the label
register; but no operation can tell the difference.
-/

namespace RegisterMachine

namespace Dialect

variable {dialect larger : Dialect} {name : Name} {operation : Operation}
  {line : Invocation} {arguments : List Argument} {action : Action}

theorem entry?_eq_register_iff :
    dialect.entry? name = some .register ↔ name ∈ dialect.registers := by
  rw [← isRegister_iff, entry?]
  split
  next isRegister => simp [isRegister]
  next notRegister => simp [notRegister]

/-- An operation is the only one with any of its names. -/
theorem operation_eq_of_name {other : Operation}
    (isOperation : operation ∈ dialect.operations)
    (isOther : other ∈ dialect.operations) (isName : name ∈ operation.names)
    (isOtherName : name ∈ other.names) : operation = other := by
  have distinct := (List.nodup_append.1 dialect.distinct).2.1
  have apart := (List.nodup_flatMap.1 distinct).2
  by_contra different
  have symmetric : Std.Symm (Function.onFun List.Disjoint Operation.names) :=
    ⟨fun _ _ disjoint _ isFirst isSecond => disjoint isSecond isFirst⟩
  exact apart.forall isOperation isOther different isName isOtherName

theorem operation?_eq_some_iff :
    dialect.operation? name = some operation ↔
      operation ∈ dialect.operations ∧ name ∈ operation.names := by
  constructor
  · intro found
    exact ⟨List.mem_of_find?_eq_some found,
      by simpa using List.find?_some found⟩
  · rintro ⟨isOperation, isName⟩
    cases found : dialect.operation? name with
    | none =>
      have unnamed := List.find?_eq_none.1 found operation isOperation
      simp [isName] at unnamed
    | some other =>
      have isOther := List.mem_of_find?_eq_some found
      have isOtherName : name ∈ other.names := by
        simpa using List.find?_some found
      rw [operation_eq_of_name isOther isOperation isOtherName isName]

theorem entry?_eq_operation_iff :
    dialect.entry? name = some (.operation operation) ↔
      operation ∈ dialect.operations ∧ name ∈ operation.names := by
  rw [← operation?_eq_some_iff]
  unfold entry?
  by_cases isRegister : name ∈ dialect.registers
  · have unnamed : dialect.operation? name ≠ some operation := by
      intro found
      obtain ⟨isOperation, isName⟩ := operation?_eq_some_iff.1 found
      exact (List.nodup_append.1 dialect.distinct).2.2 name isRegister name
        (List.mem_flatMap.2 ⟨operation, isOperation, isName⟩) rfl
    simp [isRegister_iff.2 isRegister, unnamed]
  · rw [if_neg (isRegister_iff.not.2 isRegister)]
    simp

theorem referenceFault?_eq_none_iff :
    dialect.referenceFault? name = none ↔ name ∈ dialect.registers := by
  rw [← entry?_eq_register_iff, referenceFault?]
  split <;> simp_all

theorem argumentFault?_eq_none_iff :
    dialect.argumentFault? arguments = none ↔
      ∀ name, .register name ∈ arguments → name ∈ dialect.registers := by
  rw [argumentFault?, List.findSome?_eq_none_iff]
  constructor
  · intro noFault name isArgument
    exact referenceFault?_eq_none_iff.1 (noFault (.register name) isArgument)
  · intro covered argument isArgument
    cases argument with
    | register name =>
      exact referenceFault?_eq_none_iff.2 (covered name isArgument)
    | literal value => rfl
    | label name => rfl

/-- What an operation makes of its arguments, at once or when its turn comes. -/
def actionOf (operation : Operation) (arguments : List Argument) : Action :=
  match operation.kind with
  | .instruction => .queue ⟨operation, arguments⟩
  | .immediate => .carryOut ⟨operation, arguments⟩

theorem checkArity_eq_ok_iff {given : Nat} {checked : Unit} :
    operation.checkArity given = .ok checked ↔
      operation.arity.accepts given = true := by
  rw [Operation.checkArity]
  split
  next accepts => simp [accepts]
  next notAccepted => simp [notAccepted]

theorem dispatchOperation_eq_ok_iff :
    dialect.dispatchOperation operation arguments = .ok action ↔
      operation.arity.accepts arguments.length = true ∧
        (∀ name, .register name ∈ arguments → name ∈ dialect.registers) ∧
        action = actionOf operation arguments := by
  rw [dispatchOperation, bind_eq_ok_iff, ← argumentFault?_eq_none_iff]
  simp only [checkArity_eq_ok_iff, exists_and_left, exists_const]
  refine and_congr_right fun _ => ?_
  cases dialect.argumentFault? arguments with
  | some fault => simp
  | none =>
    rw [actionOf]
    cases operation.kind <;> simp [eq_comm]

/-- A line is accepted if it is a register by itself, or if it applies an
operation to as many arguments as it takes, the registers among which are
registers of the user. -/
theorem dispatch_eq_ok_iff :
    dialect.dispatch line = .ok action ↔
      (line.name ∈ dialect.registers ∧ line.arguments = [] ∧
        action = .ignore) ∨
      ∃ operation ∈ dialect.operations, line.name ∈ operation.names ∧
        operation.arity.accepts line.arguments.length = true ∧
        (∀ name, .register name ∈ line.arguments → name ∈ dialect.registers) ∧
        action = actionOf operation line.arguments := by
  constructor
  · intro accepted
    unfold dispatch at accepted
    split at accepted
    next => cases accepted
    next isRegister =>
      split at accepted
      next bare =>
        cases accepted
        exact .inl ⟨entry?_eq_register_iff.1 isRegister,
          List.isEmpty_iff.1 bare, rfl⟩
      next => cases accepted
    next operation isOperation =>
      obtain ⟨isOperation, isName⟩ := entry?_eq_operation_iff.1 isOperation
      exact .inr ⟨operation, isOperation, isName,
        dispatchOperation_eq_ok_iff.1 accepted⟩
  · rintro (⟨isRegister, bare, rfl⟩ |
      ⟨operation, isOperation, isName, accepted⟩)
    · rw [dispatch, entry?_eq_register_iff.2 isRegister]
      simp [bare]
    · rw [dispatch, entry?_eq_operation_iff.2 ⟨isOperation, isName⟩]
      exact dispatchOperation_eq_ok_iff.2 accepted

/-- The dialect declares the registers and operations of another one, among
others. -/
structure Within (dialect larger : Dialect) : Prop where
  registers : ∀ name ∈ dialect.registers, name ∈ larger.registers
  operations : ∀ operation ∈ dialect.operations, operation ∈ larger.operations

theorem Within.dispatch (within : dialect.Within larger)
    (accepted : dialect.dispatch line = .ok action) :
    larger.dispatch line = .ok action := by
  rcases dispatch_eq_ok_iff.1 accepted with
    ⟨isRegister, bare, rfl⟩ |
      ⟨operation, isOperation, isName, accepts, covered, rfl⟩
  · exact dispatch_eq_ok_iff.2
      (.inl ⟨within.registers _ isRegister, bare, rfl⟩)
  · refine dispatch_eq_ok_iff.2 (.inr ⟨operation,
      within.operations operation isOperation, isName, accepts, ?_, rfl⟩)
    intro name isArgument
    exact within.registers name (covered name isArgument)

theorem Within.submissionFault? (within : dialect.Within larger)
    {submission : Submission}
    (noFault : dialect.submissionFault? submission line = none) :
    larger.submissionFault? submission line = none := by
  cases submission with
  | direct => rfl
  | byReference =>
    refine argumentFault?_eq_none_iff.2 fun name isArgument => ?_
    exact within.registers name
      (argumentFault?_eq_none_iff.1 noFault name isArgument)

end Dialect

/-- The instruction performs a basic operation, and its register arguments are
among these names. -/
def Instruction.Covered (names : List Name) (instruction : Instruction) :
    Prop :=
  (∃ mnemonic, instruction.operation = .ofMnemonic mnemonic) ∧
    ∀ name, .register name ∈ instruction.arguments → name ∈ names

namespace Machine

/-- The machines hold the same of all that a program with these registers can
get at. -/
structure Mirrors (names : List Name) (first second : Machine) : Prop where
  instructions : first.instructions = second.instructions
  covered : ∀ instruction ∈ first.instructions, instruction.Covered names
  counter : first.counter = second.counter
  cells : ∀ name ∈ names, first.read? name = second.read? name
  flag : first.comparison = second.comparison
  labels : first.labelTable = second.labelTable

namespace Mirrors

variable {names : List Name} {first second : Machine}

theorem queued (mirrors : Mirrors names first second) :
    first.queued = second.queued :=
  congrArg Array.size mirrors.instructions

/-- The name can be that of the comparison register or of the label register,
where a dialect leaves it to its registers. -/
theorem write (mirrors : Mirrors names first second) {name : Name}
    (isName : name ∈ names) (cell : Cell) :
    Mirrors names (first.write name cell) (second.write name cell) where
  instructions := mirrors.instructions
  covered := mirrors.covered
  counter := mirrors.counter
  cells := by
    intro wanted isWanted
    rw [read?_write, read?_write, mirrors.cells wanted isWanted]
  flag := by
    by_cases same : name = comparisonRegister
    · subst same
      rw [comparison, comparison, read?_write, read?_write,
        mirrors.cells _ isName]
    · rw [comparison_write first cell same, comparison_write second cell same,
        mirrors.flag]
  labels := by
    by_cases same : name = labelRegister
    · subst same
      rw [labelTable, labelTable, labels?, labels?, read?_write, read?_write,
        mirrors.cells _ isName]
    · rw [labelTable, labelTable, labels?_write first cell same,
        labels?_write second cell same]
      exact mirrors.labels

theorem assign (mirrors : Mirrors names first second) (name : Name)
    (cell : Cell) {wanted : Name} (isWanted : wanted ∈ names) :
    (first.assign name cell).read? wanted =
      (second.assign name cell).read? wanted := by
  rw [read?_assign, read?_assign, mirrors.cells wanted isWanted]

theorem compare (mirrors : Mirrors names first second) (difference : Word) :
    Mirrors names (first.setComparison difference)
      (second.setComparison difference) where
  instructions := mirrors.instructions
  covered := mirrors.covered
  counter := mirrors.counter
  cells := fun _ isWanted => mirrors.assign _ _ isWanted
  flag := by rw [comparison_setComparison, comparison_setComparison]
  labels := by
    rw [labelTable, labelTable, labels?_setComparison, labels?_setComparison]
    exact mirrors.labels

theorem define (mirrors : Mirrors names first second) (label : Name)
    (address : Word) :
    Mirrors names (first.defineLabel label address)
      (second.defineLabel label address) := by
  rw [defineLabel, mirrors.labels, defineLabel]
  exact {
    instructions := mirrors.instructions
    covered := mirrors.covered
    counter := mirrors.counter
    cells := fun _ isWanted => mirrors.assign _ _ isWanted
    flag := by rw [comparison_setLabels, comparison_setLabels, mirrors.flag]
    labels := by rw [labelTable_setLabels, labelTable_setLabels] }

theorem atCounter (mirrors : Mirrors names first second) (counter : Counter) :
    Mirrors names { first with counter } { second with counter } :=
  ⟨mirrors.instructions, mirrors.covered, rfl, mirrors.cells, mirrors.flag,
    mirrors.labels⟩

theorem queue (mirrors : Mirrors names first second) {instruction : Instruction}
    (covered : instruction.Covered names) :
    Mirrors names (first.queue instruction) (second.queue instruction) where
  instructions := by
    rw [Machine.queue, mirrors.instructions, Machine.queue]
  covered := by
    intro other isOther
    rcases Array.mem_push.1 isOther with isEarlier | rfl
    · exact mirrors.covered other isEarlier
    · exact covered
  counter := mirrors.counter
  cells := mirrors.cells
  flag := mirrors.flag
  labels := mirrors.labels

theorem apply (mirrors : Mirrors names first second) {effect : Effect}
    (stored : ∀ name cell, effect = .store name cell → name ∈ names) :
    Outcome.Alike (Mirrors names) (effect.apply first)
      (effect.apply second) := by
  cases effect with
  | idle => exact .done mirrors
  | store name cell => exact .done (mirrors.write (stored name cell rfl) cell)
  | compare difference => exact .done (mirrors.compare difference)
  | define label address => exact .done (mirrors.define label address)
  | goto target =>
    rw [Effect.apply, Effect.apply, jump, jump, Counter.jump_eq]
    split
    next => exact .failed _ mirrors
    next => exact .done (mirrors.atCounter ⟨target⟩)

theorem effect (mirrors : Mirrors names first second)
    {instruction : Instruction} (covered : instruction.Covered names) :
    instruction.effect first = instruction.effect second := by
  obtain ⟨⟨mnemonic, performs⟩, covered⟩ := covered
  rw [Instruction.effect, performs, Instruction.effect, performs]
  exact Mnemonic.effect_congr
    (fun name isArgument => mirrors.cells name (covered name isArgument))
    (fun _ _ => ⟨mirrors.flag, mirrors.labels⟩) (fun _ => mirrors.queued)

theorem execute (mirrors : Mirrors names first second)
    {instruction : Instruction} (covered : instruction.Covered names) :
    Outcome.Alike (Mirrors names) (instruction.execute first)
      (instruction.execute second) := by
  rw [Instruction.execute, Instruction.execute, ← mirrors.effect covered]
  cases worked : instruction.effect first with
  | error fault => exact .failed fault mirrors
  | ok effect =>
    refine mirrors.apply ?_
    rintro name cell rfl
    obtain ⟨⟨mnemonic, performs⟩, covered⟩ := covered
    rw [Instruction.effect, performs] at worked
    exact covered name (Mnemonic.effect_eq_ok_iff.1 worked).register_mem

theorem fetch? (mirrors : Mirrors names first second) :
    first.fetch? = second.fetch? := by
  rw [Machine.fetch?, mirrors.counter, mirrors.queued, mirrors.instructions,
    Machine.fetch?]

theorem step (mirrors : Mirrors names first second) :
    Option.Rel (Outcome.Alike (Mirrors names)) first.step second.step := by
  cases fetched : first.fetch? with
  | none =>
    rw [step_eq_none_iff.2 fetched,
      step_eq_none_iff.2 (mirrors.fetch?.symm.trans fetched)]
    exact .none
  | some instruction =>
    obtain ⟨address, _, isInstruction⟩ := fetch?_eq_some_iff.1 fetched
    have covered :=
      mirrors.covered instruction (Array.mem_of_getElem? isInstruction)
    rw [step_of_fetch? fetched,
      step_of_fetch? (mirrors.fetch?.symm.trans fetched)]
    refine .some ((mirrors.execute covered).andThen ?_)
    intro first second mirrors
    rw [advance, mirrors.counter]
    exact .done (mirrors.atCounter second.counter.advance)

/-- An accepted line does the same to both machines. -/
theorem submitted (mirrors : Mirrors names first second) {action : Action}
    (covered : ∀ instruction, action = .queue instruction ∨
      action = .carryOut instruction → instruction.Covered names) :
    Outcome.Alike (Mirrors names) (action.apply first)
      (action.apply second) := by
  cases action with
  | ignore => exact .done mirrors
  | queue instruction =>
    exact .done (mirrors.queue (covered instruction (.inl rfl)))
  | carryOut instruction =>
    exact mirrors.execute (covered instruction (.inr rfl))

end Mirrors

end Machine

namespace Dialect

variable {dialect larger : Dialect} {name label : Name} {line : Invocation}
  {program : Program} {action : Action} {submission : Submission}
  {machine next other : Machine}

/-- All operations of the dialect are basic ones. -/
def Basic (dialect : Dialect) : Prop :=
  ∀ operation ∈ dialect.operations, operation ∈ Operation.standard

theorem Within.basic (within : dialect.Within larger) (basic : larger.Basic) :
    dialect.Basic :=
  fun operation isOperation =>
    basic operation (within.operations operation isOperation)

theorem Basic.performs (basic : dialect.Basic) {operation : Operation}
    (isOperation : operation ∈ dialect.operations) :
    ∃ mnemonic, operation = .ofMnemonic mnemonic := by
  have isStandard := basic operation isOperation
  rw [Operation.standard_eq_map] at isStandard
  obtain ⟨mnemonic, _, rfl⟩ := List.mem_map.1 isStandard
  exact ⟨mnemonic, rfl⟩

theorem find?_machine (dialect : Dialect) (name : Name) :
    dialect.machine.registers.find? name =
      (⟨dialect.registers.map .zero ++ dialect.requested⟩ :
        RegisterBank).find? name := by
  rw [machine, Machine.ofRegisters, RegisterBank.find?_provisionAll,
    RegisterBank.find?_empty, Option.none_or]

theorem read?_machine (isRegister : name ∈ dialect.registers) :
    dialect.machine.read? name = some (.number 0) := by
  rw [Machine.read?, RegisterBank.read?, find?_machine, ← RegisterBank.read?,
    RegisterBank.read?_zero_append isRegister]

/-- A register holds zero at the start, or it is the label register and holds an
empty table. -/
theorem Basic.read?_machine (basic : dialect.Basic) {cell : Cell}
    (reads : dialect.machine.read? name = some cell) :
    cell = .number 0 ∨ name = labelRegister ∧ cell = .labels .empty := by
  obtain ⟨register, found, rfl⟩ := Option.map_eq_some_iff.1 reads
  rw [find?_machine] at found
  obtain rfl := RegisterBank.name_of_find? found
  rcases List.mem_append.1 (List.mem_of_find?_eq_some found) with
    isZeroed | isRequested
  · obtain ⟨name, _, rfl⟩ := List.mem_map.1 isZeroed
    exact .inl rfl
  · obtain ⟨operation, isOperation, requested⟩ :=
      List.mem_flatMap.1 isRequested
    have atStart : ∀ operation ∈ Operation.standard,
        ∀ register ∈ operation.provisions, register.cell = .number 0 ∨
          register.name = labelRegister ∧ register.cell = .labels .empty := by
      decide
    exact atStart operation (basic operation isOperation) register requested

theorem Basic.comparison_machine (basic : dialect.Basic) :
    dialect.machine.comparison = 0 := by
  rw [Machine.comparison]
  cases reads : dialect.machine.read? comparisonRegister with
  | none => rfl
  | some cell =>
    rcases basic.read?_machine reads with rfl | ⟨isLabel, _⟩
    · rfl
    · exact absurd isLabel (by decide)

theorem Basic.labelTable_machine (basic : dialect.Basic) :
    dialect.machine.labelTable = .empty := by
  rw [Machine.labelTable, Machine.labels?]
  cases reads : dialect.machine.read? labelRegister with
  | none => rfl
  | some cell =>
    rcases basic.read?_machine reads with rfl | ⟨_, rfl⟩ <;> rfl

theorem Within.mirrors (within : dialect.Within larger) (basic : larger.Basic) :
    Machine.Mirrors dialect.registers dialect.machine larger.machine where
  instructions := rfl
  covered := by
    intro instruction isInstruction
    exact absurd isInstruction (Array.not_mem_empty instruction)
  counter := rfl
  cells := by
    intro name isRegister
    rw [read?_machine isRegister,
      read?_machine (within.registers name isRegister)]
  flag := by
    rw [(within.basic basic).comparison_machine, basic.comparison_machine]
  labels := by
    rw [(within.basic basic).labelTable_machine, basic.labelTable_machine]

theorem Basic.covered (basic : dialect.Basic)
    (accepted : dialect.dispatch line = .ok action) (instruction : Instruction)
    (asked : action = .queue instruction ∨ action = .carryOut instruction) :
    instruction.Covered dialect.registers := by
  rcases dispatch_eq_ok_iff.1 accepted with
    ⟨_, _, rfl⟩ | ⟨operation, isOperation, _, _, covered, rfl⟩
  · rcases asked with asked | asked <;> cases asked
  · obtain rfl : (⟨operation, line.arguments⟩ : Instruction) = instruction := by
      unfold actionOf at asked
      cases kind : operation.kind <;> simpa [kind] using asked
    exact ⟨basic.performs isOperation, covered⟩

theorem Within.submit (within : dialect.Within larger) (basic : larger.Basic)
    (mirrors : Machine.Mirrors dialect.registers machine other)
    (done : dialect.submit submission line machine = .done next) :
    ∃ otherNext, larger.submit submission line other = .done otherNext ∧
      Machine.Mirrors dialect.registers next otherNext := by
  obtain ⟨noFault, action, accepted, applied⟩ := submit_eq_done_iff.1 done
  have alike := mirrors.submitted ((within.basic basic).covered accepted)
  rw [applied] at alike
  generalize otherApplied : action.apply other = outcome at alike
  cases alike with
  | @done _ otherNext mirrorsNext =>
    refine ⟨otherNext, submit_eq_done_iff.2 ?_, mirrorsNext⟩
    exact ⟨within.submissionFault? noFault, action, within.dispatch accepted,
      otherApplied⟩

theorem Within.assembleOnto (within : dialect.Within larger)
    (basic : larger.Basic)
    (mirrors : Machine.Mirrors dialect.registers machine other)
    (done : dialect.assembleOnto submission machine program = .done next) :
    ∃ otherNext, larger.assembleOnto submission other program =
        .done otherNext ∧
      Machine.Mirrors dialect.registers next otherNext := by
  induction program generalizing machine other with
  | nil =>
    cases done
    exact ⟨other, rfl, mirrors⟩
  | cons line rest induction =>
    obtain ⟨second, submitted, done⟩ := assembleOnto_cons_eq_done_iff.1 done
    obtain ⟨otherSecond, otherSubmitted, mirrors⟩ :=
      within.submit basic mirrors submitted
    obtain ⟨otherNext, otherDone, mirrors⟩ := induction mirrors done
    exact ⟨otherNext,
      assembleOnto_cons_eq_done_iff.2 ⟨otherSecond, otherSubmitted, otherDone⟩,
      mirrors⟩

/-- Assembly changes the label table by the definitions of labels only. -/
theorem Basic.labelTable_submit (basic : dialect.Basic)
    (done : dialect.submit submission line machine = .done next) :
    next.labelTable =
      match line.definedLabel? with
      | some label => machine.labelTable.insert label (machine.nextAddress - 1)
      | none => machine.labelTable := by
  obtain ⟨_, action, accepted, applied⟩ := submit_eq_done_iff.1 done
  rcases dispatch_eq_ok_iff.1 accepted with
    ⟨_, bare, rfl⟩ | ⟨operation, isOperation, isName, _, _, rfl⟩
  · cases applied
    simp [Invocation.definedLabel?, bare]
  · obtain ⟨mnemonic, rfl⟩ := basic.performs isOperation
    have named : line.mnemonic? = some mnemonic :=
      Mnemonic.named?_of_mem_names isName
    -- The definition of a label is the only operation that acts at once.
    by_cases isLabel : mnemonic = .label
    · subst isLabel
      have executed : Mnemonic.label.execute line.arguments machine =
          .done next := applied
      obtain ⟨name, given, rfl⟩ := Mnemonic.execute_label_eq_done executed
      simp only [Invocation.definedLabel?, named, given]
      exact Machine.labelTable_setLabels _ _
    · have queued : actionOf (.ofMnemonic mnemonic) line.arguments =
          .queue ⟨.ofMnemonic mnemonic, line.arguments⟩ := by
        cases mnemonic <;> first | rfl | exact absurd rfl isLabel
      have definesNone : line.definedLabel? = none := by
        unfold Invocation.definedLabel?
        split
        next isDefinition _ =>
          exact absurd (Option.some.inj (named.symm.trans isDefinition)) isLabel
        next => rfl
      rw [queued] at applied
      cases applied
      rw [definesNone]
      rfl

theorem Basic.labelled_assembleOnto (basic : dialect.Basic)
    (done : dialect.assembleOnto submission machine program = .done next)
    (labelled : (machine.labelTable.get? label).isSome ∨
      ⟨"label", [.label label]⟩ ∈ program) :
    (next.labelTable.get? label).isSome := by
  induction program generalizing machine with
  | nil =>
    cases done
    simpa using labelled
  | cons line rest induction =>
    obtain ⟨second, submitted, done⟩ := assembleOnto_cons_eq_done_iff.1 done
    apply induction done
    rw [basic.labelTable_submit submitted]
    rcases labelled with known | inProgram
    · left
      cases line.definedLabel? with
      | none => exact known
      | some defined =>
        simp only [LabelTable.get?_insert]
        split
        next => rfl
        next => exact known
    · rcases List.mem_cons.1 inProgram with rfl | inRest
      · left
        simp [Invocation.definedLabel?_eq_some_iff.2]
      · exact .inr inRest

end Dialect

/-- Reports of the same kind, with the same fault, or with the same results for
all names that both sides have. -/
inductive Report.Alike (names otherNames : List Name) : Report → Report → Prop
  | results {cells otherCells : List Cell}
      (same : ∀ name (place otherPlace : Nat), names[place]? = some name →
        otherNames[otherPlace]? = some name →
          cells[place]? = otherCells[otherPlace]?) :
      Alike names otherNames (.results cells) (.results otherCells)
  | fault (fault : Fault) : Alike names otherNames (.fault fault) (.fault fault)
  | unfinished : Alike names otherNames .unfinished .unfinished

namespace Dialect

variable {dialect larger : Dialect}

theorem report_alike {first second : Ending}
    (alike : Ending.Alike (Machine.SameResults dialect.registers) first
      second) :
    Report.Alike dialect.registers larger.registers (dialect.report first)
      (larger.report second) := by
  cases alike with
  | halted isRelated =>
    refine .results ?_
    intro name place otherPlace atPlace atOtherPlace
    rw [results, List.getElem?_map, atPlace, results, List.getElem?_map,
      atOtherPlace, Option.map_some, Option.map_some,
      isRelated.1 name (List.mem_of_getElem? atPlace)]
  | faulted fault isRelated => exact .fault fault
  | paused isRelated => exact .unfinished

/-- A program that is assembled in a dialect of basic operations is assembled
in every dialect that declares the same names and more, in any order: to the
same instructions, and with the same addresses of its labels.  The runs stay
together step by step, with the same counter, the same contents of the registers
of the smaller dialect and the same flag; they end together and fail together
with the same fault, and report the same results for the registers of the
smaller dialect. -/
theorem runs_alike_in_larger_dialect
    {registers largerRegisters : List Name}
    {operations largerOperations : List Operation} {program : Program}
    {submission : Submission} {machine : Machine}
    (declared : declare registers operations = .ok dialect)
    (largerDeclared : declare largerRegisters largerOperations = .ok larger)
    (basic : ∀ operation ∈ largerOperations, operation ∈ Operation.standard)
    (keepsRegisters : ∀ name ∈ registers, name ∈ largerRegisters)
    (keepsOperations : ∀ operation ∈ operations, operation ∈ largerOperations)
    (assembles : dialect.assembleBy submission program = .ok machine) :
    ∃ other, larger.assembleBy submission program = .ok other ∧
      other.instructions = machine.instructions ∧
      (∀ label, ⟨"label", [.label label]⟩ ∈ program → ∃ address,
        machine.labelTable.get? label = some address ∧
          other.labelTable.get? label = some address) ∧
      (∀ budget, Ending.Alike
        (fun first second => first.counter = second.counter ∧
          Machine.SameResults registers first second)
        (machine.run budget) (other.run budget)) ∧
      ∀ budget, Report.Alike registers largerRegisters
        (dialect.run submission budget program)
        (larger.run submission budget program) := by
  obtain ⟨rfl, rfl⟩ := declare_eq_ok_iff.1 declared
  obtain ⟨rfl, rfl⟩ := declare_eq_ok_iff.1 largerDeclared
  have within : dialect.Within larger := ⟨keepsRegisters, keepsOperations⟩
  have done := assembleBy_eq_ok_iff.1 assembles
  obtain ⟨other, otherDone, mirrors⟩ :=
    within.assembleOnto basic (within.mirrors basic) done
  have otherAssembles := assembleBy_eq_ok_iff.2 otherDone
  have alike (budget : Nat) :
      Ending.Alike (Machine.Mirrors dialect.registers) (machine.run budget)
        (other.run budget) :=
    Machine.run_alike (fun _ _ mirrors => mirrors.step) mirrors budget
  refine ⟨other, otherAssembles, mirrors.instructions.symm, ?_, ?_, ?_⟩
  · intro label inProgram
    have labelled := (within.basic basic).labelled_assembleOnto done
      (.inr inProgram)
    obtain ⟨address, recorded⟩ := Option.isSome_iff_exists.1 labelled
    exact ⟨address, recorded, mirrors.labels ▸ recorded⟩
  · intro budget
    exact (alike budget).mono fun _ _ mirrors =>
      ⟨mirrors.counter, mirrors.cells, mirrors.flag⟩
  · intro budget
    rw [run, assembles, run, otherAssembles]
    exact report_alike ((alike budget).mono fun _ _ mirrors =>
      ⟨mirrors.cells, mirrors.flag⟩)

/-- Two registers, and what it takes to count. -/
def counting : Dialect where
  registers := ["cx", "ax"]
  operations := [.ofMnemonic (.jump .negative), .ofMnemonic .label,
    .ofMnemonic .inc, .ofMnemonic .cmp]
  distinct := by decide
  apart := by decide

/-- More registers and all operations, in other orders. -/
def backwards : Dialect where
  registers := ["ax", "bx", "cx"]
  operations := Operation.standard.reverse
  distinct := by decide
  apart := by decide

/-- A loop that counts to three. -/
def countsToThree : Program :=
  [⟨"label", [.label "top"]⟩, ⟨"inc", [.register "ax"]⟩,
    ⟨"cmp", [.register "ax", .literal 3]⟩, ⟨"jl", [.label "top"]⟩]

theorem countsToThree_runs_backwards :
    declare ["cx", "ax"] counting.operations = .ok counting ∧
      declare ["ax", "bx", "cx"] backwards.operations = .ok backwards ∧
      ∃ machine other, counting.assembleBy .direct countsToThree = .ok machine ∧
        backwards.assembleBy .direct countsToThree = .ok other ∧
        other.instructions = machine.instructions ∧
        other.labelTable.get? "top" = some (-1) ∧
        Report.Alike ["cx", "ax"] ["ax", "bx", "cx"]
          (.results [.number 0, .number 3])
          (backwards.run .direct 20 countsToThree) := by
  have declared : declare ["cx", "ax"] counting.operations = .ok counting :=
    declare_eq_ok_iff.2 ⟨rfl, rfl⟩
  have largerDeclared : declare ["ax", "bx", "cx"] backwards.operations =
      .ok backwards := declare_eq_ok_iff.2 ⟨rfl, rfl⟩
  have assembles : counting.assembleBy .direct countsToThree = .ok _ := rfl
  obtain ⟨other, otherAssembles, sameInstructions, sameLabels, _, reports⟩ :=
    runs_alike_in_larger_dialect declared largerDeclared (by decide) (by decide)
      (by decide) assembles
  obtain ⟨address, recorded, otherRecorded⟩ := sameLabels "top" (by decide)
  cases recorded
  exact ⟨declared, largerDeclared, _, other, assembles, otherAssembles,
    sameInstructions, otherRecorded, reports 20⟩

end Dialect

end RegisterMachine

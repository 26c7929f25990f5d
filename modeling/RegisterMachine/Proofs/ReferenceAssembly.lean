import RegisterMachine.Proofs.StandardDialect

/-!
# What assembly makes of a program

Whether a line is accepted depends on the line and on the user registers alone,
so assembly can be described without a machine: it succeeds when all lines are
acceptable, and otherwise reports what is wrong with the first one that is not.
The machine that it builds is read off the text of the program: the instructions
in order, and every label at the address of the last instruction in front of its
last definition.
-/

namespace RegisterMachine

namespace Invocation

/-- A line that assembly accepts: a register by itself, or an operation with as
many arguments as it takes, whose register arguments are user registers, and
whose argument is a label if it defines one. -/
def Acceptable (registers : List Name) (line : Invocation) : Prop :=
  (line.name ∈ registers ∧ line.arguments = []) ∨
    ∃ mnemonic : Mnemonic, line.name ∈ mnemonic.names ∧
      mnemonic.arity.accepts line.arguments.length ∧
      (∀ name, .register name ∈ line.arguments → name ∈ registers) ∧
      (mnemonic = .label → ∃ label, line.arguments = [.label label])

/-- The leftmost register argument that is not a user register. -/
def strayRegister? (registers : List Name) (arguments : List Argument) :
    Option Name :=
  arguments.findSome? fun argument =>
    argument.registerName?.filter fun name => name ∉ registers

/-- What is wrong with an argument that refers to `name`. -/
def strayFault (name : Name) : Fault :=
  if (Mnemonic.named? name).isSome then .notARegister name
  else .unknownName name

/-- What is wrong with the argument of a label definition. -/
def labelFault? : Mnemonic → List Argument → Option Fault
  | .label, [.label _] => none
  | .label, found :: _ => some (.expectedLabel "label" found)
  | _, _ => none

/-- What is wrong with a line.  The first of these is reported: its name is
unknown, it has a wrong number of arguments, a register argument is no register,
a label definition has no label. -/
def refusal? (registers : List Name) (line : Invocation) : Option Fault :=
  if line.name ∈ registers then
    if line.arguments = [] then none
    else some (.wrongArity line.name (.exactly 0) line.arguments.length)
  else
    match line.mnemonic? with
    | none => some (.unknownName line.name)
    | some mnemonic =>
      if mnemonic.arity.accepts line.arguments.length then
        match strayRegister? registers line.arguments with
        | some name => some (strayFault name)
        | none => labelFault? mnemonic line.arguments
      else
        some (.wrongArity mnemonic.text mnemonic.arity line.arguments.length)

/-- What is wrong with a line that is submitted in one of the two forms.  By
reference, a register argument that is no register is found first. -/
def refusalBy? (registers : List Name) (submission : Submission)
    (line : Invocation) : Option Fault :=
  match submission with
  | .direct => line.refusal? registers
  | .byReference =>
    ((strayRegister? registers line.arguments).map strayFault).or
      (line.refusal? registers)

variable {registers : List Name} {line : Invocation}

theorem strayRegister?_eq_none_iff {arguments : List Argument} :
    strayRegister? registers arguments = none ↔
      ∀ name, .register name ∈ arguments → name ∈ registers := by
  rw [strayRegister?, List.findSome?_eq_none_iff]
  constructor
  · intro noStray name isArgument
    simpa [Argument.registerName?] using noStray _ isArgument
  · intro allRegisters argument isArgument
    cases argument with
    | register name =>
      simpa [Argument.registerName?] using allRegisters name isArgument
    | literal value => rfl
    | label name => rfl

theorem labelFault?_eq_none_iff {mnemonic : Mnemonic}
    {arguments : List Argument}
    (accepts : mnemonic.arity.accepts arguments.length) :
    labelFault? mnemonic arguments = none ↔
      (mnemonic = .label → ∃ label, arguments = [.label label]) := by
  cases mnemonic with
  | label =>
    obtain ⟨argument, rfl⟩ : ∃ argument, arguments = [argument] :=
      List.length_eq_one_iff.1 ((Arity.exactly_accepts_iff 1 _).1 accepts)
    cases argument <;> simp [labelFault?]
  | _ => simp [labelFault?]

/-- Nothing is wrong with the acceptable lines, and only with them. -/
theorem refusal?_eq_none_iff
    (apart : line.name ∈ registers → line.mnemonic? = none) :
    line.refusal? registers = none ↔ line.Acceptable registers := by
  have noOperation (unnamed : line.mnemonic? = none) (mnemonic : Mnemonic) :
      line.name ∉ mnemonic.names := by
    intro isName
    rw [mnemonic?, Mnemonic.named?_of_mem_names isName] at unnamed
    simp at unnamed
  unfold refusal? Acceptable
  by_cases isRegister : line.name ∈ registers
  · simp [isRegister, noOperation (apart isRegister)]
  · cases named : line.mnemonic? with
    | none => simp [isRegister, noOperation named]
    | some mnemonic =>
      have isName : ∀ other : Mnemonic,
          line.name ∈ other.names ↔ other = mnemonic := by
        intro other
        rw [← Mnemonic.named?_eq_some_iff, ← mnemonic?, named]
        simp [eq_comm]
      by_cases accepts : mnemonic.arity.accepts line.arguments.length
      · simp only [isRegister, accepts, isName, exists_eq_left, true_and,
          false_and, false_or, if_false, if_true,
          ← strayRegister?_eq_none_iff, ← labelFault?_eq_none_iff accepts]
        cases strayRegister? registers line.arguments <;> simp
      · simp only [isRegister, accepts, isName, exists_eq_left, false_and,
          false_or, if_false, reduceCtorEq, Bool.false_eq_true]

theorem Acceptable.covered (acceptable : line.Acceptable registers) :
    ∀ name, .register name ∈ line.arguments → name ∈ registers := by
  rcases acceptable with ⟨_, bare⟩ | ⟨_, _, _, covered, _⟩
  · simp [bare]
  · exact covered

/-- What is checked of a line that names an operation. -/
theorem Acceptable.operation {mnemonic : Mnemonic}
    (acceptable : line.Acceptable registers)
    (apart : line.name ∈ registers → line.mnemonic? = none)
    (named : line.mnemonic? = some mnemonic) :
    mnemonic.arity.accepts line.arguments.length ∧
      (∀ name, .register name ∈ line.arguments → name ∈ registers) ∧
      (mnemonic = .label → ∃ label, line.arguments = [.label label]) := by
  rcases acceptable with ⟨isRegister, _⟩ | ⟨other, isName, checked⟩
  · rw [apart isRegister] at named
    cases named
  · have sameOperation := Mnemonic.named?_of_mem_names isName
    rw [← mnemonic?, named] at sameOperation
    obtain rfl := Option.some.inj sameOperation
    exact checked

end Invocation

namespace Program

/-- The machine that holds a program, ready to run. -/
def assembled (registers : List Name) (program : Program) : Machine where
  instructions := (instructions program).toArray
  counter := .start
  registers := .initialBank registers (labelTable program)

variable {registers : List Name} {program : Program} {line : Invocation}

@[simp]
theorem queued_assembled (registers : List Name) (program : Program) :
    (assembled registers program).queued = (instructions program).length := by
  simp [Machine.queued, assembled]

theorem assembled_concat_of_queued {instruction : Instruction}
    (queued : line.instruction? = some instruction)
    (definesNone : line.definedLabel? = none) :
    assembled registers (program ++ [line]) =
      (assembled registers program).queue instruction := by
  simp [assembled, Machine.queue, labelTable_concat, queued, definesNone]

theorem assembled_concat_of_silent (silent : line.instruction? = none)
    (definesNone : line.definedLabel? = none) :
    assembled registers (program ++ [line]) = assembled registers program := by
  simp [assembled, labelTable_concat, silent, definesNone]

theorem labels?_assembled (isFree : labelRegister ∉ registers)
    (program : Program) :
    (assembled registers program).labels? = some (labelTable program) := by
  rw [Machine.labels?, Machine.read?, assembled,
    RegisterBank.read?_initialBank_labels isFree]
  rfl

theorem labelTable_assembled (isFree : labelRegister ∉ registers)
    (program : Program) :
    (assembled registers program).labelTable = labelTable program := by
  rw [Machine.labelTable, labels?_assembled isFree, Option.getD_some]

theorem comparison_assembled (isFree : comparisonRegister ∉ registers)
    (program : Program) : (assembled registers program).comparison = 0 := by
  rw [Machine.comparison, Machine.read?, assembled,
    RegisterBank.read?_initialBank_comparison isFree]
  rfl

theorem assembled_concat_of_label {label : Name}
    (isFree : labelRegister ∉ registers)
    (defines : line.definedLabel? = some label) :
    assembled registers (program ++ [line]) =
      (assembled registers program).defineLabel label
        ((assembled registers program).nextAddress - 1) := by
  have silent := Invocation.instruction?_eq_none_of_definedLabel? defines
  have bound (cell : Cell) : (⟨labelRegister, cell⟩ : Register).name ∈
      (RegisterBank.initialBank registers (labelTable program)).names := by
    simp [RegisterBank.names_initialBank]
  rw [Machine.defineLabel, labelTable_assembled isFree, Machine.nextAddress,
    queued_assembled]
  simp only [assembled, instructions_append, instructions_singleton, silent,
    labelTable_concat, defines, Machine.setLabels, Machine.assign,
    Machine.provision, Machine.write, RegisterBank.provision_of_mem (bound _),
    RegisterBank.write_initialBank_labels isFree, Option.toList_none,
    List.append_nil]

end Program

namespace Dialect

open Invocation Program

variable {dialect : Dialect}

theorem referenceFault?_eq (isStandard : dialect.IsStandard) (name : Name) :
    dialect.referenceFault? name =
      if name ∈ dialect.registers then none else some (strayFault name) := by
  by_cases isRegister : name ∈ dialect.registers
  · simp [referenceFault?, entry?_of_register isRegister, isRegister]
  · cases named : Mnemonic.named? name <;>
      simp [referenceFault?, entry?_of_not_register isStandard isRegister,
        isRegister, strayFault, named]

theorem argumentFault?_eq (isStandard : dialect.IsStandard)
    (arguments : List Argument) :
    dialect.argumentFault? arguments =
      (strayRegister? dialect.registers arguments).map strayFault := by
  rw [argumentFault?, strayRegister?, List.map_findSome?]
  congr 1
  funext argument
  cases argument with
  | register name =>
    by_cases isRegister : name ∈ dialect.registers <;>
      simp [Argument.registerName?, referenceFault?_eq isStandard, isRegister,
        Option.filter]
  | literal value => rfl
  | label name => rfl

theorem dispatchOperation_eq (isStandard : dialect.IsStandard)
    (mnemonic : Mnemonic) (arguments : List Argument) :
    dialect.dispatchOperation (.ofMnemonic mnemonic) arguments =
      if mnemonic.arity.accepts arguments.length then
        match strayRegister? dialect.registers arguments with
        | some name => .error (strayFault name)
        | none =>
          match mnemonic.kind with
          | .instruction => .ok (.queue ⟨.ofMnemonic mnemonic, arguments⟩)
          | .immediate => .ok (.carryOut ⟨.ofMnemonic mnemonic, arguments⟩)
      else
        .error (.wrongArity mnemonic.text mnemonic.arity arguments.length) := by
  have checked : (Operation.ofMnemonic mnemonic).checkArity arguments.length =
      if mnemonic.arity.accepts arguments.length then .ok ()
      else
        .error (.wrongArity mnemonic.text mnemonic.arity arguments.length) :=
    rfl
  rw [dispatchOperation, checked, argumentFault?_eq isStandard]
  by_cases accepts : mnemonic.arity.accepts arguments.length
  · rw [if_pos accepts, if_pos accepts]
    cases strayRegister? dialect.registers arguments <;> rfl
  · rw [if_neg accepts, if_neg accepts]
    rfl

/-- The definition of a label acts at once, every other operation is queued. -/
theorem apply_accepted (isStandard : dialect.IsStandard) (program : Program)
    {line : Invocation} {mnemonic : Mnemonic}
    (named : line.mnemonic? = some mnemonic)
    (accepts : mnemonic.arity.accepts line.arguments.length) :
    (match mnemonic.kind with
      | .instruction => Action.queue ⟨.ofMnemonic mnemonic, line.arguments⟩
      | .immediate => .carryOut ⟨.ofMnemonic mnemonic, line.arguments⟩).apply
        (assembled dialect.registers program) =
      match labelFault? mnemonic line.arguments with
      | some fault => .failed fault (assembled dialect.registers program)
      | none => .done (assembled dialect.registers (program ++ [line])) := by
  cases mnemonic with
  | label =>
    obtain ⟨argument, single⟩ : ∃ argument, line.arguments = [argument] :=
      List.length_eq_one_iff.1 ((Arity.exactly_accepts_iff 1 _).1 accepts)
    rw [single]
    cases argument with
    | label label =>
      have defines : line.definedLabel? = some label := by
        simp [definedLabel?, named, single]
      have isFree := labelRegister_not_mem isStandard
      rw [assembled_concat_of_label isFree defines]
      rfl
    | literal value => rfl
    | register name => rfl
  | _ =>
    have definesNone : line.definedLabel? = none := by
      simp [definedLabel?, named]
    have queued := instruction?_eq_some_iff.2
      ⟨_, named, by simp, rfl⟩
    rw [assembled_concat_of_queued queued definesNone]
    rfl

/-- A refused line leaves the machine alone, and an accepted one turns it into
the machine of the longer program. -/
theorem invoke_assembled (isStandard : dialect.IsStandard) (program : Program)
    (line : Invocation) :
    dialect.invoke line (assembled dialect.registers program) =
      match line.refusal? dialect.registers with
      | some fault => .failed fault (assembled dialect.registers program)
      | none => .done (assembled dialect.registers (program ++ [line])) := by
  unfold refusal? invoke dispatch
  by_cases isRegister : line.name ∈ dialect.registers
  · have unnamed : line.mnemonic? = none :=
      named?_eq_none_of_register isStandard isRegister
    rw [entry?_of_register isRegister, if_pos isRegister]
    by_cases bare : line.arguments = []
    · simp [bare, Action.apply, assembled_concat_of_silent, instruction?,
        definedLabel?, unnamed]
    · simp [bare]
  · rw [entry?_of_not_register isStandard isRegister, if_neg isRegister,
      ← mnemonic?]
    cases named : line.mnemonic? with
    | none => rfl
    | some mnemonic =>
      simp only [Option.map_some]
      rw [dispatchOperation_eq isStandard]
      by_cases accepts : mnemonic.arity.accepts line.arguments.length
      · rw [if_pos accepts, if_pos accepts]
        cases strayRegister? dialect.registers line.arguments with
        | some name => rfl
        | none =>
          have applied := apply_accepted isStandard program named accepts
          cases kind : mnemonic.kind <;> simpa only [kind] using applied
      · rw [if_neg accepts, if_neg accepts]

theorem submit_assembled (isStandard : dialect.IsStandard)
    (submission : Submission) (program : Program) (line : Invocation) :
    dialect.submit submission line (assembled dialect.registers program) =
      match line.refusalBy? dialect.registers submission with
      | some fault => .failed fault (assembled dialect.registers program)
      | none => .done (assembled dialect.registers (program ++ [line])) := by
  cases submission with
  | direct => exact invoke_assembled isStandard program line
  | byReference =>
    rw [submit, submissionFault?, argumentFault?_eq isStandard,
      invoke_assembled isStandard, refusalBy?]
    cases strayRegister? dialect.registers line.arguments <;> rfl

/-- Assembly succeeds when nothing is wrong with any line, and otherwise reports
what is wrong with the first line that is refused. -/
theorem assembleOnto_assembled (isStandard : dialect.IsStandard)
    (submission : Submission) (before rest : Program) :
    (dialect.assembleOnto submission (assembled dialect.registers before)
        rest).toExcept =
      match rest.findSome? (refusalBy? dialect.registers submission) with
      | some fault => .error fault
      | none => .ok (assembled dialect.registers (before ++ rest)) := by
  induction rest generalizing before with
  | nil => simp [assembleOnto, Outcome.toExcept]
  | cons line rest induction =>
    rw [assembleOnto, submit_assembled isStandard, List.findSome?_cons]
    cases line.refusalBy? dialect.registers submission with
    | some fault => rfl
    | none =>
      have continued := induction (before ++ [line])
      simpa using continued

theorem assembleBy_eq (isStandard : dialect.IsStandard)
    (submission : Submission) (program : Program) :
    dialect.assembleBy submission program =
      match program.findSome? (refusalBy? dialect.registers submission) with
      | some fault => .error fault
      | none => .ok (assembled dialect.registers program) := by
  have start : dialect.machine = assembled dialect.registers [] :=
    machine_eq isStandard
  rw [assembleBy, start, assembleOnto_assembled isStandard]
  rfl

theorem assemble_eq (isStandard : dialect.IsStandard) (program : Program) :
    dialect.assemble program =
      match program.findSome? (refusal? dialect.registers) with
      | some fault => .error fault
      | none => .ok (assembled dialect.registers program) :=
  assembleBy_eq isStandard .direct program

theorem refusal?_eq_none_iff_acceptable (isStandard : dialect.IsStandard)
    (line : Invocation) :
    line.refusal? dialect.registers = none ↔
      line.Acceptable dialect.registers :=
  refusal?_eq_none_iff (named?_eq_none_of_register isStandard)

/-- A line is refused in one form exactly when it is refused in the other. -/
theorem refusalBy?_eq_none_iff (isStandard : dialect.IsStandard)
    (submission : Submission) (line : Invocation) :
    line.refusalBy? dialect.registers submission = none ↔
      line.Acceptable dialect.registers := by
  rw [← refusal?_eq_none_iff_acceptable isStandard]
  cases submission with
  | direct => rfl
  | byReference =>
    rw [refusalBy?, Option.or_eq_none_iff, Option.map_eq_none_iff,
      strayRegister?_eq_none_iff, and_iff_right_iff_imp]
    intro accepted
    exact ((refusal?_eq_none_iff_acceptable isStandard line).1 accepted).covered

/-- A program that is assembled becomes the machine read off its text, in
whichever form it is submitted. -/
theorem assembleBy_eq_ok_iff_acceptable (isStandard : dialect.IsStandard)
    {submission : Submission} {program : Program} {machine : Machine} :
    dialect.assembleBy submission program = .ok machine ↔
      (∀ line ∈ program, line.Acceptable dialect.registers) ∧
        machine = assembled dialect.registers program := by
  have accepted :
      program.findSome? (refusalBy? dialect.registers submission) = none ↔
        ∀ line ∈ program, line.Acceptable dialect.registers := by
    simp only [List.findSome?_eq_none_iff, refusalBy?_eq_none_iff isStandard]
  rw [assembleBy_eq isStandard, ← accepted]
  cases program.findSome? (refusalBy? dialect.registers submission) <;>
    simp [eq_comm]

theorem assemble_eq_ok_iff (isStandard : dialect.IsStandard)
    {program : Program} {machine : Machine} :
    dialect.assemble program = .ok machine ↔
      (∀ line ∈ program, line.Acceptable dialect.registers) ∧
        machine = assembled dialect.registers program :=
  assembleBy_eq_ok_iff_acceptable isStandard

/-- Assembly stops at the first line that is not acceptable. -/
theorem assembleBy_of_first_refusal (isStandard : dialect.IsStandard)
    {submission : Submission} {before after : Program} {line : Invocation}
    {fault : Fault}
    (accepted : ∀ earlier ∈ before, earlier.Acceptable dialect.registers)
    (refused : line.refusalBy? dialect.registers submission = some fault) :
    dialect.assembleBy submission (before ++ line :: after) = .error fault := by
  have first :
      before.findSome? (refusalBy? dialect.registers submission) = none := by
    rw [List.findSome?_eq_none_iff]
    intro earlier isEarlier
    exact (refusalBy?_eq_none_iff isStandard submission earlier).2
      (accepted earlier isEarlier)
  have found : (before ++ line :: after).findSome?
      (refusalBy? dialect.registers submission) = some fault := by
    simp [List.findSome?_append, first, refused]
  rw [assembleBy_eq isStandard, found]

theorem assemble_of_first_refusal (isStandard : dialect.IsStandard)
    {before after : Program} {line : Invocation} {fault : Fault}
    (accepted : ∀ earlier ∈ before, earlier.Acceptable dialect.registers)
    (refused : line.refusal? dialect.registers = some fault) :
    dialect.assemble (before ++ line :: after) = .error fault :=
  assembleBy_of_first_refusal isStandard accepted refused

/-- Assembly is determined by the text of the program.  It succeeds exactly when
every line is acceptable, it reports what is wrong with the first line that is
not, and a success leaves the instructions in order, the counter at the start,
zeroed registers, and a table of the labels with their addresses. -/
theorem assemble_eq_reference {registers : List Name}
    (declared : declare registers Operation.standard = .ok dialect)
    (program : Program) (short : program.length < 2 ^ 63) :
    ((∃ machine, dialect.assemble program = .ok machine) ↔
        ∀ line ∈ program, line.Acceptable registers) ∧
      (∀ before line after, program = before ++ line :: after →
        (∀ earlier ∈ before, earlier.Acceptable registers) →
        ¬ line.Acceptable registers →
        ∃ fault, line.refusal? registers = some fault ∧
          dialect.assemble program = .error fault) ∧
      ∀ machine, dialect.assemble program = .ok machine →
        machine.instructions.toList = instructions program ∧
        machine.queued = (instructions program).length ∧
        machine.counter = .start ∧
        ∃ table, machine.labels? = some table ∧
          machine.registers.toList =
            registers.map .zero ++
              [.zero comparisonRegister, ⟨labelRegister, .labels table⟩] ∧
          ∀ label address, table.get? label = some address ↔
            ∃ before after,
              program = before ++ ⟨"label", [.label label]⟩ :: after ∧
              ⟨"label", [.label label]⟩ ∉ after ∧
              address.toInt = ((instructions before).length : Int) - 1 := by
  have isStandard := isStandard_of_declare declared
  obtain rfl := registers_of_declare declared
  refine ⟨?_, ?_, ?_⟩
  · simp [assemble_eq_ok_iff isStandard]
  · rintro before line after rfl accepted notAcceptable
    rw [← refusal?_eq_none_iff_acceptable isStandard] at notAcceptable
    obtain ⟨fault, refused⟩ := Option.ne_none_iff_exists'.1 notAcceptable
    exact ⟨fault, refused,
      assemble_of_first_refusal isStandard accepted refused⟩
  · intro machine succeeded
    obtain ⟨_, rfl⟩ := (assemble_eq_ok_iff isStandard).1 succeeded
    refine ⟨rfl, queued_assembled _ _, rfl, labelTable program,
      labels?_assembled (labelRegister_not_mem isStandard) program, rfl, ?_⟩
    exact fun label address => get?_labelTable_eq_some_iff short

/-- A label that is defined again, behind an instruction, moves there. -/
theorem assembles_label_defined_again :
    declare standardRegisters Operation.standard = .ok standard ∧
      ∃ machine table, standard.assemble
          [⟨"label", [.label "top"]⟩, ⟨"increment", [.register "ax"]⟩,
            ⟨"label", [.label "top"]⟩] = .ok machine ∧
        machine.labels? = some table ∧ table.get? "top" = some 0 := by
  have declared : declare standardRegisters Operation.standard = .ok standard :=
    declare_eq_ok_iff.2 ⟨rfl, rfl⟩
  have reference := assemble_eq_reference declared
    [⟨"label", [.label "top"]⟩, ⟨"increment", [.register "ax"]⟩,
      ⟨"label", [.label "top"]⟩] (by decide)
  obtain ⟨_, _, _, table, hasTable, _, addresses⟩ := reference.2.2 _ rfl
  refine ⟨declared, _, table, rfl, hasTable, (addresses "top" 0).2 ?_⟩
  exact ⟨[⟨"label", [.label "top"]⟩, ⟨"increment", [.register "ax"]⟩], [],
    rfl, by simp, rfl⟩

end Dialect

end RegisterMachine

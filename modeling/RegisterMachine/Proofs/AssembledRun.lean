import RegisterMachine.Proofs.OperationRules
import RegisterMachine.Proofs.ReferenceAssembly

/-!
# Runs of assembled programs

What every machine has in common that runs an assembled program: the
instructions, the label table and the names of the registers stay as assembly
left them, the registers of the user hold what a program can write down, and the
comparison register holds a number.  Every step keeps this.  The number in the
comparison register is the difference that the last comparison found.
-/

namespace RegisterMachine

namespace Program

/-- Assembly accepts every line of the program, and the registers of the user
have names of their own. -/
structure Accepted (registers : List Name) (program : Program) : Prop where
  acceptable : ∀ line ∈ program, line.Acceptable registers
  apart : ∀ name ∈ registers, Mnemonic.named? name = none
  comparisonFree : comparisonRegister ∉ registers
  labelFree : labelRegister ∉ registers

/-- The cells that a program can put into the registers of the user. -/
inductive Storable (registers : List Name) (program : Program) : Cell → Prop
  | number (value : Word) : Storable registers program (.number value)
  | register {name : Name} (isRegister : name ∈ registers) :
      Storable registers program (.register name)
  | label {line : Invocation} {name : Name} (inProgram : line ∈ program)
      (isArgument : .label name ∈ line.arguments) :
      Storable registers program (.label name)

/-- A machine in the course of a run of the program. -/
structure Running (registers : List Name) (program : Program)
    (machine : Machine) : Prop where
  instructions : machine.instructions = (instructions program).toArray
  names : machine.registers.names =
    registers ++ [comparisonRegister, labelRegister]
  labels : machine.read? labelRegister = some (.labels (labelTable program))
  cells : ∀ name ∈ registers, ∃ cell, machine.read? name = some cell ∧
    Storable registers program cell
  flag : ∃ difference, machine.read? comparisonRegister =
    some (.number difference)

end Program

namespace Attempt

/-- The difference that an attempted comparison finds, if its operands are
numbers. -/
def difference? (attempt : Attempt) : Option Word :=
  match attempt.instruction.operation.performs,
      attempt.instruction.arguments with
  | some .cmp, .register name :: amount =>
    match attempt.before.read? name,
        attempt.before.registers.amount amount.head? with
    | some (.number current), .ok operand => some (current - operand)
    | _, _ => none
  | _, _ => none

/-- The difference found by the last comparison among these attempts, or zero if
there is none. -/
def lastDifference (attempts : List Attempt) : Word :=
  (attempts.filterMap difference?).getLast?.getD 0

end Attempt

namespace Program

open Mnemonic (Yields)

variable {registers : List Name} {program : Program} {machine : Machine}
  {instruction : Instruction}

theorem Accepted.line_of_instruction (accepted : Accepted registers program)
    (isInstruction : instruction ∈ instructions program) :
    ∃ line ∈ program, ∃ mnemonic, line.mnemonic? = some mnemonic ∧
      mnemonic ≠ .label ∧
      instruction = ⟨.ofMnemonic mnemonic, line.arguments⟩ ∧
      mnemonic.arity.accepts line.arguments.length = true ∧
      ∀ name, .register name ∈ line.arguments → name ∈ registers := by
  obtain ⟨line, inProgram, queued⟩ := List.mem_filterMap.1 isInstruction
  obtain ⟨mnemonic, named, notLabel, rfl⟩ :=
    Invocation.instruction?_eq_some_iff.1 queued
  obtain ⟨accepts, covered, _⟩ := (accepted.acceptable line inProgram).operation
    (accepted.apart line.name) named
  exact ⟨line, inProgram, mnemonic, named, notLabel, rfl, accepts, covered⟩

theorem storable_argument {line : Invocation} (inProgram : line ∈ program)
    (covered : ∀ name, .register name ∈ line.arguments → name ∈ registers)
    {argument : Argument} (isArgument : argument ∈ line.arguments) :
    Storable registers program argument.toCell := by
  cases argument with
  | literal value => exact .number value
  | register name => exact .register (covered name isArgument)
  | label name => exact .label inProgram isArgument

theorem running_assembled (accepted : Accepted registers program) :
    Running registers program (assembled registers program) where
  instructions := rfl
  names := RegisterBank.names_initialBank registers (labelTable program)
  labels := RegisterBank.read?_initialBank_labels accepted.labelFree
  cells := by
    intro name isRegister
    exact ⟨.number 0, RegisterBank.read?_initialBank_register isRegister,
      .number 0⟩
  flag := ⟨0, RegisterBank.read?_initialBank_comparison accepted.comparisonFree⟩

theorem Running.atCounter (running : Running registers program machine)
    (counter : Counter) :
    Running registers program { machine with counter } :=
  ⟨running.instructions, running.names, running.labels, running.cells,
    running.flag⟩

theorem Running.store (running : Running registers program machine)
    (accepted : Accepted registers program) {name : Name} {cell : Cell}
    (isRegister : name ∈ registers)
    (storable : Storable registers program cell) :
    Running registers program (machine.write name cell) where
  instructions := running.instructions
  names := (RegisterBank.names_write machine.registers name cell).trans
    running.names
  labels := by
    rw [Machine.read?_write, if_neg, running.labels]
    rintro rfl
    exact accepted.labelFree isRegister
  cells := by
    intro wanted isWanted
    obtain ⟨held, reads, heldStorable⟩ := running.cells wanted isWanted
    rw [Machine.read?_write, reads]
    by_cases same : wanted = name
    · exact ⟨cell, by simp [same], storable⟩
    · exact ⟨held, by simp [same], heldStorable⟩
  flag := by
    rw [Machine.read?_write, if_neg]
    · exact running.flag
    rintro rfl
    exact accepted.comparisonFree isRegister

theorem Running.compare (running : Running registers program machine)
    (accepted : Accepted registers program) (difference : Word) :
    Running registers program (machine.setComparison difference) where
  instructions := running.instructions
  names := by
    have bound : comparisonRegister ∈ machine.registers.names := by
      simp [running.names]
    rw [Machine.setComparison, Machine.assign, Machine.write,
      RegisterBank.names_write, Machine.provision,
      RegisterBank.provision_of_mem bound, running.names]
  labels := by
    rw [Machine.setComparison, Machine.read?_assign, if_neg (by decide),
      running.labels]
  cells := by
    intro wanted isWanted
    rw [Machine.setComparison, Machine.read?_assign, if_neg]
    · exact running.cells wanted isWanted
    rintro rfl
    exact accepted.comparisonFree isWanted
  flag := ⟨difference, by
    rw [Machine.setComparison, Machine.read?_assign, if_pos rfl]⟩

theorem Running.effect {mnemonic : Mnemonic} {arguments : List Argument}
    {effect : Effect} {changed : Machine}
    (running : Running registers program machine)
    (accepted : Accepted registers program) (notLabel : mnemonic ≠ .label)
    (covered : ∀ name, .register name ∈ arguments → name ∈ registers)
    (storable : ∀ argument ∈ arguments,
      Storable registers program argument.toCell)
    (yields : Yields machine mnemonic arguments effect)
    (applied : effect.apply machine = .done changed) :
    Running registers program changed := by
  cases yields with
  | mov source bound =>
    cases applied
    exact running.store accepted (covered _ List.mem_cons_self)
      (storable source (by simp))
  | inc reads operandRead =>
    cases applied
    exact running.store accepted (covered _ List.mem_cons_self) (.number _)
  | dec reads operandRead =>
    cases applied
    exact running.store accepted (covered _ List.mem_cons_self) (.number _)
  | cmp reads operandRead =>
    cases applied
    exact running.compare accepted _
  | label name => exact absurd rfl notLabel
  | stay argument notMet =>
    cases applied
    exact running
  | leap met found =>
    obtain ⟨_, rfl⟩ := Machine.apply_goto_eq_done applied
    exact running.atCounter _

theorem Running.labelTable (running : Running registers program machine) :
    machine.labelTable = Program.labelTable program := by
  rw [Machine.labelTable, Machine.labels?, running.labels]
  rfl

theorem Running.mem_instructions (running : Running registers program machine)
    (fetched : machine.fetch? = some instruction) :
    instruction ∈ Program.instructions program := by
  obtain ⟨address, _, found⟩ := Machine.fetch?_eq_some_iff.1 fetched
  rw [running.instructions, List.getElem?_toArray] at found
  exact List.mem_of_getElem? found

/-- A step keeps a machine in its course. -/
theorem Running.step {next : Machine}
    (running : Running registers program machine)
    (accepted : Accepted registers program)
    (stepped : machine.step = some (.done next)) :
    Running registers program next := by
  obtain ⟨instruction, effect, changed, fetched, worked, applied, rfl⟩ :=
    Machine.step_eq_done_iff.1 stepped
  obtain ⟨line, inProgram, mnemonic, _, notLabel, rfl, _, covered⟩ :=
    accepted.line_of_instruction (running.mem_instructions fetched)
  have runningChanged := running.effect accepted notLabel covered
    (fun _ => storable_argument inProgram covered)
    (Mnemonic.effect_eq_ok_iff.1 worked) applied
  exact runningChanged.atCounter _

theorem Running.run (running : Running registers program machine)
    (accepted : Accepted registers program) (budget : Nat) :
    Running registers program (machine.run budget).machine :=
  Machine.invariant_run (fun _ _ holds => holds.step accepted) running budget

theorem Running.attempt {budget : Nat} {attempt : Attempt}
    (running : Running registers program machine)
    (accepted : Accepted registers program)
    (isAttempt : attempt ∈ machine.attempts budget) :
    Running registers program attempt.before ∧
      attempt.before.fetch? = some attempt.instruction :=
  Machine.invariant_attempts (fun _ _ holds => holds.step accepted) running
    isAttempt

theorem difference?_of_other {attempt : Attempt}
    (other : attempt.instruction.operation.performs ≠ some .cmp) :
    attempt.difference? = none := by
  unfold Attempt.difference?
  split
  next isCmp _ => exact absurd isCmp other
  next => rfl

/-- The difference that an attempt finds is the one that it records. -/
theorem difference?_eq_some_iff {mnemonic : Mnemonic}
    {arguments : List Argument} {difference : Word}
    (accepts : mnemonic.arity.accepts arguments.length = true) :
    Attempt.difference? ⟨machine, .ofMnemonic mnemonic, arguments⟩ =
        some difference ↔
      mnemonic.effect machine arguments = .ok (.compare difference) := by
  by_cases compares : mnemonic = .cmp
  · subst compares
    obtain ⟨destination, amount, rfl⟩ :=
      Mnemonic.destination_and_amount? accepts
    rw [Mnemonic.effect_cmp, Mnemonic.compareEffect_eq_ok_iff]
    constructor
    · intro found
      cases destination with
      | register name =>
        simp only [Attempt.difference?, Operation.ofMnemonic,
          Option.head?_toList] at found
        split at found
        next current operand reads operandRead =>
          cases found
          exact ⟨name, current, operand, rfl, reads, operandRead, rfl⟩
        next => cases found
      | literal value => cases found
      | label name => cases found
    · rintro ⟨name, current, operand, rfl, reads, operandRead, same⟩
      cases same
      simp [Attempt.difference?, Operation.ofMnemonic, reads, operandRead]
  · have nothing : Attempt.difference?
        ⟨machine, .ofMnemonic mnemonic, arguments⟩ = none :=
      difference?_of_other (by simpa [Operation.ofMnemonic] using compares)
    rw [nothing, Mnemonic.effect_eq_ok_iff]
    constructor
    · intro found
      cases found
    · intro yields
      cases yields
      exact absurd rfl compares

/-- Only a comparison changes the comparison register. -/
theorem flag_of_yields {mnemonic : Mnemonic} {arguments : List Argument}
    {effect : Effect} {changed : Machine}
    (accepted : Accepted registers program) (notLabel : mnemonic ≠ .label)
    (covered : ∀ name, .register name ∈ arguments → name ∈ registers)
    (yields : Yields machine mnemonic arguments effect)
    (applied : effect.apply machine = .done changed) :
    (∃ difference, effect = .compare difference ∧
        changed.read? comparisonRegister = some (.number difference)) ∨
      (∀ difference, effect ≠ .compare difference) ∧
        changed.read? comparisonRegister =
          machine.read? comparisonRegister := by
  cases effect with
  | idle =>
    cases applied
    exact .inr ⟨nofun, rfl⟩
  | store name cell =>
    cases applied
    have otherRegister : comparisonRegister ≠ name := by
      rintro rfl
      exact accepted.comparisonFree (covered _ yields.register_mem)
    exact .inr ⟨nofun,
      (Machine.read?_write _ _ _ _).trans (if_neg otherRegister)⟩
  | compare difference =>
    cases applied
    exact .inl ⟨_, rfl, (Machine.read?_assign _ _ _ _).trans (if_pos rfl)⟩
  | define label address => exact absurd yields.eq_label notLabel
  | goto target =>
    obtain ⟨_, rfl⟩ := Machine.apply_goto_eq_done applied
    exact .inr ⟨nofun, rfl⟩

/-- An attempt that succeeds leaves the difference that it found, or else the
flag of before.  One that fails finds no difference. -/
theorem Running.outcome {attempt : Attempt}
    (running : Running registers program attempt.before)
    (accepted : Accepted registers program)
    (fetched : attempt.before.fetch? = some attempt.instruction) :
    match attempt.outcome with
    | .done next => Running registers program next ∧
        next.read? comparisonRegister =
          (attempt.difference?.map .number).or
            (attempt.before.read? comparisonRegister)
    | .failed _ stopped =>
      stopped = attempt.before ∧ attempt.difference? = none := by
  obtain ⟨before, instruction⟩ := attempt
  have stepped := Machine.step_of_attempt?
    (Machine.attempt?_eq_some_iff.2 ⟨rfl, fetched⟩)
  obtain ⟨line, inProgram, mnemonic, _, notLabel, rfl, accepts, covered⟩ :=
    accepted.line_of_instruction (running.mem_instructions fetched)
  have finds (difference : Word) :
      Attempt.difference? ⟨before, .ofMnemonic mnemonic, line.arguments⟩ =
          some difference ↔
        mnemonic.effect before line.arguments = .ok (.compare difference) :=
    difference?_eq_some_iff accepts
  generalize outcomeCase : Attempt.outcome _ = outcome at stepped ⊢
  cases outcome with
  | done next =>
    refine ⟨running.step accepted stepped, ?_⟩
    obtain ⟨_, effect, changed, again, worked, applied, rfl⟩ :=
      Machine.step_eq_done_iff.1 stepped
    obtain rfl := Option.some.inj (fetched.symm.trans again)
    rcases flag_of_yields accepted notLabel covered
        (Mnemonic.effect_eq_ok_iff.1 worked) applied with
      ⟨difference, rfl, flag⟩ | ⟨other, flag⟩
    · rw [(finds difference).2 worked]
      exact flag
    · -- Had a difference been found, the effect would be its recording.
      have nothing : Attempt.difference?
          ⟨before, .ofMnemonic mnemonic, line.arguments⟩ = none := by
        rw [Option.eq_none_iff_forall_ne_some]
        intro difference found
        exact other difference
          (Except.ok.inj (worked.symm.trans ((finds difference).1 found)))
      rw [nothing]
      exact flag
  | failed fault stopped =>
    obtain ⟨rfl, _, again, failed⟩ := Machine.step_eq_failed_iff.1 stepped
    obtain rfl := Option.some.inj (fetched.symm.trans again)
    refine ⟨rfl, ?_⟩
    rw [Option.eq_none_iff_forall_ne_some]
    intro difference found
    have worked := (finds difference).1 found
    rcases failed with failed | ⟨target, jumps, _, _⟩
    · cases worked.symm.trans failed
    · cases worked.symm.trans jumps

theorem Running.flag_of_run {flag : Word}
    (running : Running registers program machine)
    (accepted : Accepted registers program)
    (holds : machine.read? comparisonRegister = some (.number flag))
    (budget : Nat) :
    (machine.run budget).machine.read? comparisonRegister =
      some (.number (((machine.attempts budget).filterMap
        Attempt.difference?).getLast?.getD flag)) := by
  induction budget generalizing machine flag with
  | zero => exact holds
  | succ budget induction =>
    cases attempted : machine.attempt? with
    | none => simpa [Machine.run, Machine.step, Machine.attempts, attempted]
    | some attempt =>
      have stepped := Machine.step_of_attempt? attempted
      obtain ⟨rfl, fetched⟩ := Machine.attempt?_eq_some_iff.1 attempted
      have outcome := running.outcome accepted fetched
      cases succeeds : attempt.outcome with
      | done next =>
        rw [succeeds] at outcome stepped
        obtain ⟨runningNext, flagNext⟩ := outcome
        rw [holds] at flagNext
        rw [Machine.run_of_step budget stepped,
          Machine.attempts_of_step budget attempted succeeds]
        cases found : attempt.difference? with
        | none =>
          rw [found] at flagNext
          rw [List.filterMap_cons_none found]
          exact induction runningNext flagNext
        | some difference =>
          rw [found] at flagNext
          rw [List.filterMap_cons_some found, List.getLast?_cons,
            Option.getD_some]
          exact induction runningNext flagNext
      | failed fault stopped =>
        rw [succeeds] at outcome stepped
        obtain ⟨rfl, nothing⟩ := outcome
        simpa [Machine.run, stepped, Machine.attempts, attempted, succeeds,
          Ending.machine, nothing]

end Program

/-- The registers that operations keep for themselves are closed to an attempt,
except that a comparison writes the flag and that jumps read both. -/
structure Attempt.KeepsApart (registers : List Name) (attempt : Attempt) :
    Prop where
  flag : attempt.instruction.operation.performs ≠ some .cmp →
    attempt.outcome.machine.read? comparisonRegister =
      attempt.before.read? comparisonRegister
  labels : attempt.outcome.machine.read? labelRegister =
    attempt.before.read? labelRegister
  unread : (∀ condition,
      attempt.instruction.operation.performs ≠ some (.jump condition)) →
    ∀ other : Machine,
      (∀ name ∈ registers, other.read? name = attempt.before.read? name) →
        attempt.instruction.effect other =
          attempt.instruction.effect attempt.before

namespace Program

variable {registers : List Name} {program : Program} {machine : Machine}

theorem Running.keepsApart {attempt : Attempt}
    (running : Running registers program attempt.before)
    (accepted : Accepted registers program)
    (fetched : attempt.before.fetch? = some attempt.instruction) :
    attempt.KeepsApart registers := by
  have outcome := running.outcome accepted fetched
  refine ⟨?_, ?_, ?_⟩
  · intro notCompares
    cases succeeds : attempt.outcome with
    | done next =>
      rw [succeeds] at outcome
      rw [Outcome.machine, outcome.2, difference?_of_other notCompares]
      rfl
    | failed fault stopped =>
      rw [succeeds] at outcome
      rw [Outcome.machine, outcome.1]
  · cases succeeds : attempt.outcome with
    | done next =>
      rw [succeeds] at outcome
      rw [Outcome.machine, outcome.1.labels, running.labels]
    | failed fault stopped =>
      rw [succeeds] at outcome
      rw [Outcome.machine, outcome.1]
  · intro notJump other agree
    obtain ⟨line, _, mnemonic, _, notLabel, isLine, _, covered⟩ :=
      accepted.line_of_instruction (running.mem_instructions fetched)
    rw [isLine] at notJump ⊢
    refine Mnemonic.effect_congr
      (fun name isArgument => agree name (covered name isArgument)) ?_
      (fun isLabel => absurd isLabel notLabel)
    rintro condition rfl
    exact absurd rfl (notJump condition)

end Program

namespace Dialect

open Program

variable {dialect : Dialect} {program : Program} {machine : Machine}

theorem accepted_of_assembleBy (isStandard : dialect.IsStandard)
    {submission : Submission}
    (assembles : dialect.assembleBy submission program = .ok machine) :
    Accepted dialect.registers program ∧
      machine = assembled dialect.registers program := by
  obtain ⟨acceptable, isAssembled⟩ :=
    (assembleBy_eq_ok_iff_acceptable isStandard).1 assembles
  exact ⟨⟨acceptable, fun _ => named?_eq_none_of_register isStandard,
    comparisonRegister_not_mem isStandard, labelRegister_not_mem isStandard⟩,
    isAssembled⟩

theorem accepted_of_assemble (isStandard : dialect.IsStandard)
    (assembles : dialect.assemble program = .ok machine) :
    Accepted dialect.registers program ∧
      machine = assembled dialect.registers program :=
  accepted_of_assembleBy isStandard assembles

/-- A line that is no definition of a label is assembled without a look at the
registers and without a change to them. -/
theorem invoke_of_not_label (isStandard : dialect.IsStandard)
    {line : Invocation} (acceptable : line.Acceptable dialect.registers)
    (notLabel : line.mnemonic? ≠ some .label) (earlier : Machine) :
    dialect.invoke line earlier =
      .done { earlier with instructions :=
        earlier.instructions ++ line.instruction?.toList.toArray } := by
  by_cases isRegister : line.name ∈ dialect.registers
  · have unnamed : line.mnemonic? = none :=
      named?_eq_none_of_register isStandard isRegister
    have bare : line.arguments = [] := by
      rcases acceptable with ⟨_, bare⟩ | ⟨mnemonic, isName, _⟩
      · exact bare
      · rw [Invocation.mnemonic?, Mnemonic.named?_of_mem_names isName]
          at unnamed
        cases unnamed
    simp [invoke, dispatch, entry?_of_register isRegister, bare, Action.apply,
      Invocation.instruction?, unnamed]
  · rcases acceptable with
      ⟨named, _⟩ | ⟨mnemonic, isName, accepts, covered, _⟩
    · exact absurd named isRegister
    have named : line.mnemonic? = some mnemonic :=
      Mnemonic.named?_of_mem_names isName
    have other : mnemonic ≠ .label := fun isLabel => notLabel (isLabel ▸ named)
    have queued := Invocation.instruction?_eq_some_iff.2
      ⟨mnemonic, named, other, rfl⟩
    have isInstruction : mnemonic.kind = .instruction := by
      cases mnemonic <;> first | rfl | exact absurd rfl other
    have noStray := Invocation.strayRegister?_eq_none_iff.2 covered
    rw [invoke, dispatch, entry?_of_not_register isStandard isRegister,
      ← Invocation.mnemonic?, named]
    simp only [Option.map_some, dispatchOperation_eq isStandard, accepts,
      if_true, noStray, isInstruction, Action.apply, Machine.queue, queued,
      Option.toList_some]
    rw [Array.push_eq_append]

/-- In the course of a run the instructions, the label table and the slots of
all registers stay as assembly left them.  The registers of the user hold
numbers, identities of user registers, or labels that the program mentions; the
label register holds a label table, and the comparison register the difference
found by the last comparison.  A program cannot get at the last two by other
means: at assembly only the definition of a label looks at registers, and in a
run only comparisons write the flag, nothing writes the label table, and only
jumps read one of them. -/
theorem assembled_run_typed {registers : List Name}
    (declared : declare registers Operation.standard = .ok dialect)
    (assembles : dialect.assemble program = .ok machine) (budget : Nat)
    (final : Machine) (ends : (machine.run budget).machine = final) :
    (final.instructions = machine.instructions ∧
        final.queued = machine.queued ∧
        final.labels? = machine.labels? ∧
        final.registers.names = machine.registers.names ∧
        ∀ name, final.registers.slot? name = machine.registers.slot? name) ∧
      (∀ name ∈ registers, ∃ cell, final.read? name = some cell ∧
        Storable registers program cell) ∧
      (∃ table, final.read? labelRegister = some (.labels table)) ∧
      final.read? comparisonRegister =
        some (.number (Attempt.lastDifference (machine.attempts budget))) ∧
      (∀ attempt ∈ machine.attempts budget, attempt.KeepsApart registers) ∧
      ∀ line ∈ program, line.mnemonic? ≠ some .label → ∀ earlier,
        dialect.invoke line earlier =
          .done { earlier with instructions :=
            earlier.instructions ++ line.instruction?.toList.toArray } := by
  have isStandard := isStandard_of_declare declared
  obtain rfl := registers_of_declare declared
  obtain ⟨accepted, rfl⟩ := accepted_of_assemble isStandard assembles
  subst ends
  have start := running_assembled accepted
  have running := start.run accepted budget
  have names := running.names.trans start.names.symm
  refine ⟨⟨running.instructions, ?_, ?_, names, ?_⟩, running.cells,
    ⟨_, running.labels⟩, ?_, ?_, ?_⟩
  · rw [Machine.queued, running.instructions]
    rfl
  · rw [Machine.labels?, running.labels, Machine.labels?, start.labels]
  · intro name
    rw [RegisterBank.slot?_eq, names, ← RegisterBank.slot?_eq]
  · exact start.flag_of_run accepted
      (RegisterBank.read?_initialBank_comparison accepted.comparisonFree) budget
  · intro attempt isAttempt
    obtain ⟨runningBefore, fetched⟩ := start.attempt accepted isAttempt
    exact runningBefore.keepsApart accepted fetched
  · intro line inProgram notLabel earlier
    exact invoke_of_not_label isStandard (accepted.acceptable line inProgram)
      notLabel earlier

/-- A program that stores an identity and a label, compares, and then fails
because it computes with the identity. -/
def storesSymbols : Program :=
  [⟨"mov", [.register "ax", .register "bx"]⟩, ⟨"label", [.label "here"]⟩,
    ⟨"move", [.register "dx", .label "here"]⟩,
    ⟨"cmp", [.register "cx", .literal 5]⟩, ⟨"inc", [.register "ax"]⟩]

theorem storesSymbols_run_typed :
    declare standardRegisters Operation.standard = .ok standard ∧
      ∃ machine final, standard.assemble storesSymbols = .ok machine ∧
        (machine.run 10).machine = final ∧
        (∀ name ∈ standardRegisters, ∃ cell, final.read? name = some cell ∧
          Storable standardRegisters storesSymbols cell) ∧
        final.read? "ax" = some (.register "bx") ∧
        final.read? "dx" = some (.label "here") ∧
        final.read? comparisonRegister = some (.number (-5)) := by
  have declared : declare standardRegisters Operation.standard = .ok standard :=
    declare_eq_ok_iff.2 ⟨rfl, rfl⟩
  have assembles : standard.assemble storesSymbols = .ok _ := rfl
  obtain ⟨_, typed, _, flag, _⟩ :=
    assembled_run_typed declared assembles 10 _ rfl
  exact ⟨declared, _, _, rfl, rfl, typed, rfl, rfl, flag⟩

end Dialect

end RegisterMachine

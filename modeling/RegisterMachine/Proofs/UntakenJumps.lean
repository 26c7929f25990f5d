import RegisterMachine.Proofs.OperationRules

/-!
# Jumps that are not taken

A jump tests its condition before it looks at its argument.  So where it is not
taken, its argument may be anything, and where a run never comes, the
instruction may be any other.  A machine with other instructions in these places
makes the same steps, as long as it has the same number of them.  The same jump
can be taken on one visit and not on another, so what may be replaced is told
visit by visit.
-/

namespace RegisterMachine

namespace Instruction

/-- The instruction is a jump with this condition and has one argument. -/
def JumpsOn (instruction : Instruction) (condition : Condition) : Prop :=
  instruction.operation = .ofMnemonic (.jump condition) ∧
    instruction.arguments.length = 1

instance (instruction : Instruction) (condition : Condition) :
    Decidable (instruction.JumpsOn condition) :=
  inferInstanceAs (Decidable (_ ∧ _))

/-- A jump that is not taken has no effect, whatever its argument is. -/
theorem JumpsOn.effect {instruction : Instruction} {condition : Condition}
    {machine : Machine} (jumps : instruction.JumpsOn condition)
    (notMet : condition.holds machine.comparison = false) :
    instruction.effect machine = .ok .idle := by
  obtain ⟨operation, arguments⟩ := instruction
  obtain ⟨rfl, one⟩ := jumps
  obtain ⟨argument, rfl⟩ := List.length_eq_one_iff.1 one
  exact Mnemonic.effect_eq_ok_iff.2 (.stay argument notMet)

end Instruction

/-- In place of the attempted instruction there may be another one if both are
jumps with the same condition, which is not met. -/
def Attempt.Admits (attempt : Attempt) (other : Instruction) : Prop :=
  other = attempt.instruction ∨
    ∃ condition ∈ Condition.all,
      attempt.instruction.JumpsOn condition ∧ other.JumpsOn condition ∧
        condition.holds attempt.before.comparison = false

instance (attempt : Attempt) (other : Instruction) :
    Decidable (attempt.Admits other) :=
  inferInstanceAs (Decidable (_ ∨ _))

namespace Machine

def instructionAt? (machine : Machine) (counter : Counter) :
    Option Instruction :=
  (counter.index? machine.queued).bind (machine.instructions[·]?)

/-- Machines with the same registers, the same counter, and as many
instructions. -/
structure InStep (first second : Machine) : Prop where
  registers : first.registers = second.registers
  counter : first.counter = second.counter
  queued : first.queued = second.queued

variable {first second : Machine}

theorem instructionAt?_congr (same : first.instructions = second.instructions) :
    first.instructionAt? = second.instructionAt? := by
  funext counter
  rw [instructionAt?, queued, same, instructionAt?, queued]

namespace InStep

theorem read? (inStep : InStep first second) (name : Name) :
    first.read? name = second.read? name := by
  rw [Machine.read?, inStep.registers, Machine.read?]

theorem comparison (inStep : InStep first second) :
    first.comparison = second.comparison := by
  rw [Machine.comparison, inStep.read?, Machine.comparison]

theorem labelTable (inStep : InStep first second) :
    first.labelTable = second.labelTable := by
  rw [Machine.labelTable, labels?, inStep.read?, Machine.labelTable, labels?]

theorem effect (inStep : InStep first second) (instruction : Instruction) :
    instruction.effect first = instruction.effect second := by
  rw [Instruction.effect, Operation.effect, Instruction.effect, Operation.effect]
  cases instruction.operation.performs with
  | none => rfl
  | some mnemonic =>
    exact Mnemonic.effect_congr (fun name _ => inStep.read? name)
      (fun _ _ => ⟨inStep.comparison, inStep.labelTable⟩)
      (fun _ => inStep.queued)

theorem atCounter (inStep : InStep first second) (counter : Counter) :
    InStep { first with counter } { second with counter } :=
  ⟨inStep.registers, rfl, inStep.queued⟩

theorem assign (inStep : InStep first second) (name : Name) (cell : Cell) :
    InStep (first.assign name cell) (second.assign name cell) :=
  ⟨congrArg (fun bank => (bank.provision ⟨name, cell⟩).write name cell)
    inStep.registers, inStep.counter, inStep.queued⟩

theorem apply (inStep : InStep first second) (effect : Effect) :
    Outcome.Alike InStep (effect.apply first) (effect.apply second) := by
  cases effect with
  | idle => exact .done inStep
  | store name cell =>
    exact .done ⟨congrArg (RegisterBank.write · name cell) inStep.registers,
      inStep.counter, inStep.queued⟩
  | compare difference => exact .done (inStep.assign _ _)
  | define label address =>
    rw [Effect.apply, defineLabel, inStep.labelTable, Effect.apply, defineLabel]
    exact .done (inStep.assign _ _)
  | goto target =>
    rw [Effect.apply, jump, Effect.apply, jump]
    cases Counter.jump target with
    | ok counter => exact .done (inStep.atCounter counter)
    | error fault => exact .failed fault inStep

/-- An instruction that may stand in place of another one has its effect. -/
theorem effect_of_admits {attempt : Attempt} {other : Instruction}
    (inStep : InStep attempt.before second) (admits : attempt.Admits other) :
    attempt.instruction.effect attempt.before = other.effect second := by
  rcases admits with rfl | ⟨condition, _, jumps, otherJumps, notMet⟩
  · exact inStep.effect _
  · rw [jumps.effect notMet, otherJumps.effect]
    rw [← inStep.comparison]
    exact notMet

theorem outcome {attempt other : Attempt}
    (inStep : InStep attempt.before other.before)
    (admits : attempt.Admits other.instruction) :
    Outcome.Alike InStep attempt.outcome other.outcome := by
  rw [Attempt.outcome, Instruction.execute, inStep.effect_of_admits admits,
    Attempt.outcome, Instruction.execute]
  refine Outcome.Alike.andThen ?_ fun _ _ changed =>
    .done ⟨changed.registers, congrArg Counter.advance changed.counter,
      changed.queued⟩
  cases other.instruction.effect other.before with
  | ok effect => exact inStep.apply effect
  | error fault => exact .failed fault inStep

theorem fetch?_eq_none_iff (inStep : InStep first second) :
    first.fetch? = none ↔ second.fetch? = none := by
  rw [Machine.fetch?_eq_none_iff, inStep.counter, inStep.queued,
    ← Machine.fetch?_eq_none_iff]

/-- The second machine attempts an instruction that the first one admits. -/
theorem attempt (inStep : InStep first second) {attempt : Attempt}
    (attempted : first.attempt? = some attempt)
    (admits : ∀ other ∈ second.instructionAt? attempt.before.counter,
      attempt.Admits other) :
    ∃ other, second.attempt? = some other ∧
      InStep attempt.before other.before ∧ attempt.Admits other.instruction := by
  obtain ⟨rfl, fetched⟩ := attempt?_eq_some_iff.1 attempted
  have isFetched : second.fetch? ≠ none := by
    rw [ne_eq, ← inStep.fetch?_eq_none_iff, fetched]
    simp
  obtain ⟨other, otherFetched⟩ := Option.ne_none_iff_exists'.1 isFetched
  refine ⟨⟨second, other⟩, attempt?_eq_some_iff.2 ⟨rfl, otherFetched⟩, inStep,
    admits other ?_⟩
  rw [inStep.counter]
  exact otherFetched

/-- As long as the first machine admits what it finds in the other one, both
make the same steps. -/
theorem run (inStep : InStep first second) {budget : Nat}
    (admits : ∀ attempt ∈ first.attempts budget,
      ∀ other ∈ second.instructionAt? attempt.before.counter,
        attempt.Admits other) :
    RunsAlike (fun attempt other => InStep attempt.before other.before) InStep
      first second budget := by
  induction budget generalizing first second with
  | zero => exact .zero inStep
  | succ budget induction =>
    cases attempted : first.attempt? with
    | none =>
      have ends : first.fetch? = none := Option.map_eq_none_iff.1 attempted
      exact .halted ends (inStep.fetch?_eq_none_iff.1 ends) inStep
    | some attempt =>
      have isFirst := mem_attempts_of_attempt? attempted budget
      obtain ⟨other, otherAttempted, inStepBefore, admitted⟩ :=
        inStep.attempt attempted (admits attempt isFirst)
      refine .cons attempted otherAttempted inStepBefore
        (inStepBefore.outcome admitted) ?_ fun _ _ _ inStepStopped _ =>
          inStepStopped
      intro next otherNext inStepNext succeeds otherSucceeds
      have otherStepped := step_of_attempt? otherAttempted
      rw [otherSucceeds] at otherStepped
      have sameTable := instructionAt?_congr (instructions_of_step otherStepped)
      refine induction inStepNext fun later isLater => ?_
      rw [sameTable]
      refine admits later ?_
      rw [attempts_of_step budget attempted succeeds]
      exact List.mem_cons_of_mem _ isLater

end InStep

/-- Two machines with the same registers, the same counter and as many
instructions make the same steps for as long as the second one has, wherever the
first one comes, the same instruction or, on a visit on which a jump is not
taken, such a jump with another argument.  They visit the same addresses with
the same registers, and they come to the end of their instructions, or fail with
the same fault, after the same number of steps. -/
theorem untaken_jumps_have_no_influence
    (sameRegisters : first.registers = second.registers)
    (sameCounter : first.counter = second.counter)
    (sameLength : first.queued = second.queued) {budget : Nat}
    (admits : ∀ attempt ∈ first.attempts budget,
      ∀ other ∈ second.instructionAt? attempt.before.counter,
        attempt.Admits other) :
    List.Forall₂
        (fun attempt other : Attempt =>
          attempt.before.counter = other.before.counter ∧
            attempt.before.registers = other.before.registers)
        (first.attempts budget) (second.attempts budget) ∧
      ∀ steps ≤ budget,
        Ending.Alike InStep (first.run steps) (second.run steps) ∧
          ((first.run steps).machine.fetch? = none ↔
            (second.run steps).machine.fetch? = none) := by
  have inStep : InStep first second := ⟨sameRegisters, sameCounter, sameLength⟩
  refine ⟨(inStep.run admits).attempts.imp fun _ _ before =>
    ⟨before.counter, before.registers⟩, ?_⟩
  intro steps withinBudget
  have endings := (inStep.run fun attempt isAttempt =>
    admits attempt (mem_attempts_of_le isAttempt withinBudget)).endings
  exact ⟨endings, endings.machine.fetch?_eq_none_iff⟩

/-- A machine that counts to three and then fails.  On the way it comes three
times to a jump that it does not take, and it never comes to its last
instruction. -/
def passesJump (argument : Argument) (last : Instruction) : Machine where
  instructions := #[⟨.ofMnemonic .inc, [.register "ax"]⟩,
    ⟨.ofMnemonic .cmp, [.register "ax", .literal 3]⟩,
    ⟨.ofMnemonic (.jump .positive), [argument]⟩,
    ⟨.ofMnemonic (.jump .negative), [.literal (-1)]⟩,
    ⟨.ofMnemonic .dec, [.label "ax"]⟩, last]
  counter := .start
  registers := ⟨[.zero "ax"]⟩

/-- An undefined label, a register, and an address before the lowest target are
all the same to a jump that is not taken. -/
theorem passesJump_fails_alike :
    ∃ first, first = passesJump (.literal 5) ⟨.ofMnemonic .inc, []⟩ ∧
      ∀ argument ∈ [Argument.label "nowhere", .register "ax", .literal (-7)],
        ∃ second, second = passesJump argument ⟨.ofMnemonic .mov, []⟩ ∧
          first.registers = second.registers ∧
          first.counter = second.counter ∧ first.queued = second.queued ∧
          (∀ attempt ∈ first.attempts 13,
            ∀ other ∈ second.instructionAt? attempt.before.counter,
              attempt.Admits other) ∧
          (∃ stopped, first.run 13 =
            .faulted (.expectedRegister "dec" (.label "ax")) stopped) ∧
          ∃ stopped, second.run 13 =
            .faulted (.expectedRegister "dec" (.label "ax")) stopped := by
  refine ⟨_, rfl, fun argument isListed => ?_⟩
  have admits : ∀ attempt ∈ (passesJump (.literal 5)
        ⟨.ofMnemonic .inc, []⟩).attempts 13,
      ∀ other ∈ (passesJump argument
          ⟨.ofMnemonic .mov, []⟩).instructionAt? attempt.before.counter,
        attempt.Admits other := by
    revert argument
    decide
  obtain ⟨stopped, fails⟩ : ∃ stopped,
      (passesJump (.literal 5) ⟨.ofMnemonic .inc, []⟩).run 13 =
        .faulted (.expectedRegister "dec" (.label "ax")) stopped := ⟨_, rfl⟩
  have endings := (@untaken_jumps_have_no_influence
    (passesJump (.literal 5) ⟨.ofMnemonic .inc, []⟩)
    (passesJump argument ⟨.ofMnemonic .mov, []⟩) rfl rfl rfl 13 admits).2 13
    (Nat.le_refl 13)
  exact ⟨_, rfl, rfl, rfl, rfl, admits, ⟨stopped, fails⟩,
    endings.1.faulted_of_faulted fails⟩

end Machine

end RegisterMachine

import Mathlib.Data.List.Forall2
import RegisterMachine.Proofs.AssembledRun

/-!
# Registers that nothing computes with

A move stores its second argument without looking at it, and its first argument
without looking at what it overwrites.  So what is in a register matters to a
run only if the register is an argument of arithmetic or of a comparison.  Two
machines that differ in other registers only go through their runs in lockstep,
and they differ no more behind a move into such a register.
-/

namespace RegisterMachine

namespace Instruction

/-- The instruction stores its second argument in the register. -/
def MovesInto (instruction : Instruction) (name : Name) : Prop :=
  instruction.operation.performs = some .mov ∧
    ∃ source, instruction.arguments = [.register name, source]

/-- The register is an argument of arithmetic or of a comparison. -/
def ComputesWith (instruction : Instruction) (name : Name) : Prop :=
  (∃ mnemonic ∈ [Mnemonic.inc, .dec, .cmp],
    instruction.operation.performs = some mnemonic) ∧
      .register name ∈ instruction.arguments

instance (instruction : Instruction) (name : Name) :
    Decidable (instruction.ComputesWith name) :=
  inferInstanceAs (Decidable (_ ∧ _))

end Instruction

namespace Machine

/-- No instruction computes with the register. -/
def NeverComputesWith (machine : Machine) (name : Name) : Prop :=
  ∀ instruction ∈ machine.instructions, ¬ instruction.ComputesWith name

instance (machine : Machine) (name : Name) :
    Decidable (machine.NeverComputesWith name) :=
  inferInstanceAs (Decidable (∀ _ ∈ machine.instructions, ¬ _))

/-- Machines that differ at most in the contents of the hidden registers. -/
structure AgreeExcept (hidden : Name → Prop) (first second : Machine) :
    Prop where
  instructions : first.instructions = second.instructions
  counter : first.counter = second.counter
  names : first.registers.names = second.registers.names
  cells : ∀ name, ¬ hidden name → first.read? name = second.read? name

/-- Runs of two machines that differ in one register go on side by side.  The
register keeps what it held at the start of each of them up to the first move
into it, and holds the same in both from then on. -/
structure Lockstep (name : Name) (first second : Machine) (budget : Nat) :
    Prop where
  attempts : List.Forall₂
    (fun attempt other : Attempt => attempt.instruction = other.instruction ∧
      AgreeExcept (· = name) attempt.before other.before)
    (first.attempts budget) (second.attempts budget)
  endings : Ending.Alike (AgreeExcept (· = name)) (first.run budget)
    (second.run budget)
  untouched :
    (∀ attempt ∈ first.attempts budget,
      ¬ attempt.instruction.MovesInto name) →
    (first.run budget).machine.read? name = first.read? name ∧
      (second.run budget).machine.read? name = second.read? name
  overwritten :
    (∃ attempt ∈ first.attempts budget, attempt.instruction.MovesInto name) →
    (first.run budget).machine.read? name =
      (second.run budget).machine.read? name

variable {hidden : Name → Prop} {first second machine : Machine}

namespace AgreeExcept

theorem mono {more : Name → Prop} (agree : AgreeExcept hidden first second)
    (weaker : ∀ name, hidden name → more name) :
    AgreeExcept more first second :=
  ⟨agree.instructions, agree.counter, agree.names, fun name shown =>
    agree.cells name fun isHidden => shown (weaker name isHidden)⟩

theorem isSome_read? (agree : AgreeExcept hidden first second) (name : Name) :
    (first.read? name).isSome = (second.read? name).isSome := by
  rw [Bool.eq_iff_iff, read?, RegisterBank.read?_isSome,
    RegisterBank.find?_isSome_iff, agree.names, read?,
    RegisterBank.read?_isSome, RegisterBank.find?_isSome_iff]

theorem comparison (agree : AgreeExcept hidden first second)
    (shown : ¬ hidden comparisonRegister) :
    first.comparison = second.comparison := by
  rw [Machine.comparison, agree.cells _ shown, Machine.comparison]

theorem labelTable (agree : AgreeExcept hidden first second)
    (shown : ¬ hidden labelRegister) : first.labelTable = second.labelTable := by
  rw [Machine.labelTable, labels?, agree.cells _ shown, Machine.labelTable,
    labels?]

theorem fetch? (agree : AgreeExcept hidden first second) :
    first.fetch? = second.fetch? := by
  rw [Machine.fetch?, queued, agree.instructions, agree.counter, Machine.fetch?,
    queued]

theorem atCounter (agree : AgreeExcept hidden first second)
    (counter : Counter) :
    AgreeExcept hidden { first with counter } { second with counter } :=
  ⟨agree.instructions, rfl, agree.names, agree.cells⟩

theorem advance (agree : AgreeExcept hidden first second) :
    AgreeExcept hidden first.advance second.advance :=
  ⟨agree.instructions, congrArg Counter.advance agree.counter, agree.names,
    agree.cells⟩

/-- A register that is written to holds the same in both machines. -/
theorem write (agree : AgreeExcept hidden first second) (name : Name)
    (cell : Cell) :
    AgreeExcept (fun other => hidden other ∧ other ≠ name)
      (first.write name cell) (second.write name cell) where
  instructions := agree.instructions
  counter := agree.counter
  names := by
    rw [Machine.write, RegisterBank.names_write, Machine.write,
      RegisterBank.names_write, agree.names]
  cells := by
    intro wanted shown
    rw [read?_write, read?_write]
    by_cases written : wanted = name
    · have sameBound := agree.isSome_read? wanted
      rw [if_pos written, if_pos written]
      cases reads : first.read? wanted <;>
        cases otherReads : second.read? wanted <;> simp_all
    · rw [if_neg written, if_neg written]
      exact agree.cells wanted fun isHidden => shown ⟨isHidden, written⟩

theorem assign (agree : AgreeExcept hidden first second) (name : Name)
    (cell : Cell) :
    AgreeExcept hidden (first.assign name cell) (second.assign name cell) where
  instructions := agree.instructions
  counter := agree.counter
  names := by
    rw [Machine.assign, Machine.write, RegisterBank.names_write,
      Machine.provision, RegisterBank.names_provision, agree.names,
      ← RegisterBank.names_provision, Machine.assign, Machine.write,
      RegisterBank.names_write, Machine.provision]
  cells := by
    intro wanted shown
    rw [read?_assign, read?_assign, agree.cells wanted shown]

/-- Carrying out the same effect leaves the machines with the same differences,
except that what is stored is the same in both. -/
theorem apply (agree : AgreeExcept hidden first second)
    (shown : ¬ hidden labelRegister) (effect : Effect) :
    Outcome.Alike
      (AgreeExcept fun name => hidden name ∧ ∀ cell, effect ≠ .store name cell)
      (effect.apply first) (effect.apply second) := by
  cases effect with
  | idle => exact .done (agree.mono (by simp))
  | store name cell =>
    refine .done ((agree.write name cell).mono ?_)
    rintro other ⟨isHidden, notWritten⟩
    exact ⟨isHidden, fun _ isStore => notWritten (Effect.store.inj isStore).1.symm⟩
  | compare difference => exact .done ((agree.assign _ _).mono (by simp))
  | define label address =>
    rw [Effect.apply, defineLabel, agree.labelTable shown, Effect.apply,
      defineLabel]
    exact .done ((agree.assign _ _).mono (by simp))
  | goto target =>
    rw [Effect.apply, jump, Effect.apply, jump]
    cases Counter.jump target with
    | ok counter => exact .done ((agree.atCounter counter).mono (by simp))
    | error fault => exact .failed fault (agree.mono (by simp))

end AgreeExcept

end Machine

namespace Instruction

variable {instruction : Instruction} {machine : Machine} {name : Name}

theorem performs_of_store {cell : Cell}
    (worked : instruction.effect machine = .ok (.store name cell)) :
    ∃ mnemonic, instruction.operation.performs = some mnemonic ∧
      Mnemonic.Yields machine mnemonic instruction.arguments
        (.store name cell) := by
  rw [effect, Operation.effect] at worked
  cases performs : instruction.operation.performs with
  | none =>
    rw [performs] at worked
    cases checked : instruction.operation.checkArity
      instruction.arguments.length <;> simp [checked, Except.map] at worked
  | some mnemonic =>
    rw [performs] at worked
    exact ⟨mnemonic, rfl, Mnemonic.effect_eq_ok_iff.1 worked⟩

/-- An instruction that does not compute with a register can store something
in it by a move only. -/
theorem movesInto_of_store {cell : Cell}
    (unread : ¬ instruction.ComputesWith name)
    (worked : instruction.effect machine = .ok (.store name cell)) :
    instruction.MovesInto name := by
  obtain ⟨mnemonic, performs, yields⟩ := performs_of_store worked
  have computes (isComputation : mnemonic ∈ [.inc, .dec, .cmp]) :
      instruction.ComputesWith name :=
    ⟨⟨mnemonic, isComputation, performs⟩, yields.register_mem⟩
  generalize written : instruction.arguments = arguments at yields
  cases yields with
  | mov source bound => exact ⟨performs, source, written⟩
  | inc reads operandRead => exact absurd (computes (by simp)) unread
  | dec reads operandRead => exact absurd (computes (by simp)) unread

/-- A move into a register that is bound stores something in it. -/
theorem MovesInto.store {effect : Effect} (moves : instruction.MovesInto name)
    (worked : instruction.effect machine = .ok effect) :
    ∃ cell, effect = .store name cell := by
  obtain ⟨performs, source, isMove⟩ := moves
  rw [Instruction.effect, Operation.effect, performs, isMove] at worked
  cases Mnemonic.effect_eq_ok_iff.1 worked with
  | mov source bound => exact ⟨_, rfl⟩

theorem MovesInto.unbound {fault : Fault} (moves : instruction.MovesInto name)
    (failed : instruction.effect machine = .error fault) :
    machine.read? name = none := by
  obtain ⟨performs, source, isMove⟩ := moves
  rw [Instruction.effect, Operation.effect, performs, isMove] at failed
  by_contra bound
  have worked := Mnemonic.effect_eq_ok_iff.2
    (.mov source (Option.isSome_iff_ne_none.2 bound))
  cases failed.symm.trans worked

end Instruction

namespace Machine

variable {hidden : Name → Prop} {first second machine : Machine}
  {instruction : Instruction}

/-- An instruction that computes with no hidden register has the same effect on
both machines. -/
theorem AgreeExcept.effect (agree : AgreeExcept hidden first second)
    (flagShown : ¬ hidden comparisonRegister)
    (labelsShown : ¬ hidden labelRegister)
    (unread : ∀ name, hidden name → ¬ instruction.ComputesWith name) :
    instruction.effect first = instruction.effect second := by
  rw [Instruction.effect, Operation.effect, Instruction.effect,
    Operation.effect]
  cases performs : instruction.operation.performs with
  | none => rfl
  | some mnemonic =>
    refine Mnemonic.effect_eq_of_seen
      (fun _ name _ => agree.isSome_read? name) ?_
      (fun _ _ => ⟨agree.comparison flagShown, agree.labelTable labelsShown⟩)
      fun _ => congrArg Array.size agree.instructions
    intro computes name isArgument
    exact agree.cells name fun isHidden =>
      unread name isHidden ⟨⟨mnemonic, computes, performs⟩, isArgument⟩

/-- Behind an instruction that computes with no hidden register the machines
differ in the registers in which they differed, except in one that it moves
into. -/
theorem AgreeExcept.outcome (agree : AgreeExcept hidden first second)
    (flagShown : ¬ hidden comparisonRegister)
    (labelsShown : ¬ hidden labelRegister)
    (unread : ∀ name, hidden name → ¬ instruction.ComputesWith name) :
    Outcome.Alike
      (AgreeExcept fun name => hidden name ∧ ¬ instruction.MovesInto name)
      (Attempt.outcome ⟨first, instruction⟩)
      (Attempt.outcome ⟨second, instruction⟩) := by
  have same := agree.effect flagShown labelsShown unread
  rw [Attempt.outcome, Instruction.execute, Attempt.outcome,
    Instruction.execute, ← same]
  cases worked : instruction.effect first with
  | ok effect =>
    have lessHidden (name : Name)
        (stillHidden : hidden name ∧ ∀ cell, effect ≠ .store name cell) :
        hidden name ∧ ¬ instruction.MovesInto name := by
      refine ⟨stillHidden.1, fun moves => ?_⟩
      obtain ⟨cell, isStore⟩ := moves.store worked
      exact stillHidden.2 cell isStore
    have applied := (agree.apply labelsShown effect).mono
      fun _ _ changed => changed.mono lessHidden
    exact applied.andThen fun _ _ changed => .done changed.advance
  | error fault =>
    refine .failed fault ⟨agree.instructions, agree.counter, agree.names, ?_⟩
    intro name shown
    by_cases isHidden : hidden name
    · -- Only a register that is not bound cannot be moved into.
      have moves : instruction.MovesInto name := by
        by_contra notMoved
        exact shown ⟨isHidden, notMoved⟩
      rw [moves.unbound worked, moves.unbound (same.symm.trans worked)]
    · exact agree.cells name isHidden

theorem NeverComputesWith.of_instructions {name : Name}
    (unread : first.NeverComputesWith name)
    (same : second.instructions = first.instructions) :
    second.NeverComputesWith name := by
  rwa [NeverComputesWith, same]

theorem NeverComputesWith.of_fetch? {name : Name}
    (unread : machine.NeverComputesWith name)
    (fetched : machine.fetch? = some instruction) :
    ¬ instruction.ComputesWith name := by
  obtain ⟨_, _, found⟩ := fetch?_eq_some_iff.1 fetched
  exact unread instruction (Array.mem_of_getElem? found)

/-- Both machines attempt the same instruction. -/
theorem AgreeExcept.attempt (agree : AgreeExcept hidden first second)
    (flagShown : ¬ hidden comparisonRegister)
    (labelsShown : ¬ hidden labelRegister)
    (unread : ∀ name, hidden name → first.NeverComputesWith name)
    {attempt : Attempt} (attempted : first.attempt? = some attempt) :
    ∃ other, second.attempt? = some other ∧
      attempt.instruction = other.instruction ∧
      AgreeExcept hidden attempt.before other.before ∧
      Outcome.Alike
        (AgreeExcept fun name => hidden name ∧
          ¬ attempt.instruction.MovesInto name)
        attempt.outcome other.outcome := by
  obtain ⟨rfl, fetched⟩ := attempt?_eq_some_iff.1 attempted
  have otherFetched := agree.fetch?.symm.trans fetched
  exact ⟨⟨second, attempt.instruction⟩,
    attempt?_eq_some_iff.2 ⟨rfl, otherFetched⟩, rfl, agree,
    agree.outcome flagShown labelsShown fun name isHidden =>
      (unread name isHidden).of_fetch? fetched⟩

/-- Machines that differ in registers with which they do not compute attempt the
same instructions and come to the same ending, and they differ no more in those
registers that they have moved into. -/
theorem AgreeExcept.run (agree : AgreeExcept hidden first second)
    (flagShown : ¬ hidden comparisonRegister)
    (labelsShown : ¬ hidden labelRegister)
    (unread : ∀ name, hidden name → first.NeverComputesWith name)
    (budget : Nat) :
    RunsAlike
      (fun attempt other => attempt.instruction = other.instruction ∧
        AgreeExcept hidden attempt.before other.before)
      (AgreeExcept fun name => hidden name ∧
        ∀ attempt ∈ first.attempts budget, ¬ attempt.instruction.MovesInto name)
      first second budget := by
  -- The hidden registers get fewer on the way, so the induction is over any of
  -- them.
  induction budget generalizing hidden first second with
  | zero => exact .zero (agree.mono (by simp [attempts]))
  | succ budget induction =>
    cases attempted : first.attempt? with
    | none =>
      have ends : first.fetch? = none := Option.map_eq_none_iff.1 attempted
      exact .halted ends (agree.fetch?.symm.trans ends)
        (agree.mono (by simp [attempts, attempted]))
    | some attempt =>
      obtain ⟨other, otherAttempted, sameInstruction, agreeBefore, alike⟩ :=
        agree.attempt flagShown labelsShown unread attempted
      refine .cons attempted otherAttempted ⟨sameInstruction, agreeBefore⟩ alike
        ?_ ?_
      · intro next otherNext agreeNext succeeds _
        have stepped := step_of_attempt? attempted
        rw [succeeds] at stepped
        have rest := induction agreeNext
          (fun isHidden => flagShown isHidden.1)
          (fun isHidden => labelsShown isHidden.1)
          fun name isHidden => (unread name isHidden.1).of_instructions
            (instructions_of_step stepped)
        rw [attempts_of_step budget attempted succeeds]
        refine rest.mono ?_ ?_
        · rintro later otherLater ⟨sameLater, agreeLater⟩
          exact ⟨sameLater, agreeLater.mono fun _ => And.left⟩
        · intro _ _ agreeThere
          refine agreeThere.mono ?_
          rintro name ⟨⟨isHidden, notHere⟩, notLater⟩
          exact ⟨isHidden, List.forall_mem_cons.2 ⟨notHere, notLater⟩⟩
      · intro fault stopped otherStopped agreeStopped fails
        exact agreeStopped.mono (by simp [attempts, attempted, fails])

theorem read?_of_apply (machine : Machine) {name : Name}
    (notFlag : name ≠ comparisonRegister) (notLabels : name ≠ labelRegister)
    {effect : Effect} (notStored : ∀ cell, effect ≠ .store name cell) :
    (effect.apply machine).machine.read? name = machine.read? name := by
  cases effect with
  | idle => rfl
  | store register cell =>
    refine (read?_write _ _ _ _).trans (if_neg ?_)
    rintro rfl
    exact notStored cell rfl
  | compare difference => exact (read?_assign _ _ _ _).trans (if_neg notFlag)
  | define label address => exact (read?_assign _ _ _ _).trans (if_neg notLabels)
  | goto target =>
    rw [Effect.apply, jump]
    cases Counter.jump target <;> rfl

theorem read?_of_outcome (machine : Machine) {name : Name}
    (notFlag : name ≠ comparisonRegister) (notLabels : name ≠ labelRegister)
    (unread : ¬ instruction.ComputesWith name)
    (notMoved : ¬ instruction.MovesInto name) :
    (Attempt.outcome ⟨machine, instruction⟩).machine.read? name =
      machine.read? name := by
  rw [Attempt.outcome, Instruction.execute]
  cases worked : instruction.effect machine with
  | error fault => rfl
  | ok effect =>
    have notStored (cell : Cell) : effect ≠ .store name cell := by
      rintro rfl
      exact notMoved (Instruction.movesInto_of_store unread worked)
    rw [← read?_of_apply machine notFlag notLabels notStored, Effect.carryOut]
    cases effect.apply machine <;> rfl

/-- A register with which the machine does not compute stays as it is up to the
first move into it. -/
theorem read?_run_of_not_moved {name : Name}
    (notFlag : name ≠ comparisonRegister) (notLabels : name ≠ labelRegister)
    (unread : machine.NeverComputesWith name) {budget : Nat}
    (notMoved : ∀ attempt ∈ machine.attempts budget,
      ¬ attempt.instruction.MovesInto name) :
    (machine.run budget).machine.read? name = machine.read? name := by
  induction budget generalizing machine with
  | zero => rfl
  | succ budget induction =>
    cases attempted : machine.attempt? with
    | none => simp [run, step, attempted, Ending.machine]
    | some attempt =>
      have stepped := step_of_attempt? attempted
      have isFirst := mem_attempts_of_attempt? attempted budget
      obtain ⟨rfl, fetched⟩ := attempt?_eq_some_iff.1 attempted
      have kept : attempt.outcome.machine.read? name =
          attempt.before.read? name :=
        read?_of_outcome attempt.before notFlag notLabels
          (unread.of_fetch? fetched) (notMoved attempt isFirst)
      cases succeeds : attempt.outcome with
      | done next =>
        rw [succeeds] at stepped kept
        rw [attempts_of_step budget attempted succeeds,
          List.forall_mem_cons] at notMoved
        rw [run_of_step budget stepped, ← kept]
        exact induction
          (unread.of_instructions (instructions_of_step stepped)) notMoved.2
      | failed fault stopped =>
        rw [succeeds] at stepped kept
        rw [run, stepped]
        exact kept

theorem agreeExcept_write (machine : Machine) (name : Name)
    (first second : Cell) :
    AgreeExcept (· = name) (machine.write name first)
      (machine.write name second) where
  instructions := rfl
  counter := rfl
  names := (RegisterBank.names_write _ _ _).trans
    (RegisterBank.names_write _ _ _).symm
  cells := by
    intro other shown
    rw [read?_write, if_neg shown, read?_write, if_neg shown]

theorem AgreeExcept.lockstep {name : Name}
    (agree : AgreeExcept (· = name) first second)
    (notFlag : name ≠ comparisonRegister) (notLabels : name ≠ labelRegister)
    (unread : first.NeverComputesWith name) (budget : Nat) :
    Lockstep name first second budget := by
  obtain ⟨attempts, endings⟩ := agree.run notFlag.symm notLabels.symm
    (fun _ isName => isName ▸ unread) budget
  have sameInstructions :
      (first.attempts budget).map Attempt.instruction =
        (second.attempts budget).map Attempt.instruction := by
    rw [← List.forall₂_eq_eq_eq, List.forall₂_map_left_iff,
      List.forall₂_map_right_iff]
    exact attempts.imp fun _ _ => And.left
  refine ⟨attempts, endings.mono ?_, ?_, ?_⟩
  · intro _ _ agreeThere
    exact agreeThere.mono fun _ => And.left
  · intro notMoved
    have otherNotMoved : ∀ attempt ∈ second.attempts budget,
        ¬ attempt.instruction.MovesInto name := by
      rw [← List.forall_mem_map (f := Attempt.instruction)
        (P := fun instruction => ¬ instruction.MovesInto name),
        ← sameInstructions, List.forall_mem_map]
      exact notMoved
    have otherUnread := unread.of_instructions agree.instructions.symm
    exact ⟨read?_run_of_not_moved notFlag notLabels unread notMoved,
      read?_run_of_not_moved notFlag notLabels otherUnread otherNotMoved⟩
  · rintro ⟨attempt, isAttempt, moves⟩
    apply endings.machine.cells
    exact fun stillHidden => stillHidden.2 attempt isAttempt moves

end Machine

namespace Dialect

open Program

variable {dialect : Dialect} {program : Program} {machine : Machine}

/-- What is in a user register has no influence on a run in which nothing is
computed with the register: whatever it held at the start, the run goes the same
way, with the same contents of all other registers and the same ending, and the
register itself holds the same from the first move into it on. -/
theorem unread_register_without_influence {registers : List Name}
    (declared : declare registers Operation.standard = .ok dialect)
    (assembles : dialect.assemble program = .ok machine) {name : Name}
    (isRegister : name ∈ registers) (unread : machine.NeverComputesWith name)
    (first second : Cell) :
    (machine.write name first).read? name = some first ∧
      (machine.write name second).read? name = some second ∧
      ∀ budget, Machine.Lockstep name (machine.write name first)
        (machine.write name second) budget := by
  have isStandard := isStandard_of_declare declared
  obtain rfl := registers_of_declare declared
  obtain ⟨accepted, rfl⟩ := accepted_of_assemble isStandard assembles
  obtain ⟨cell, reads, _⟩ := (running_assembled accepted).cells name isRegister
  have bound : ((assembled dialect.registers program).read? name).isSome := by
    rw [reads, Option.isSome_some]
  have notFlag : name ≠ comparisonRegister := by
    rintro rfl
    exact accepted.comparisonFree isRegister
  have notLabels : name ≠ labelRegister := by
    rintro rfl
    exact accepted.labelFree isRegister
  refine ⟨Machine.read?_write_self bound, Machine.read?_write_self bound,
    fun budget => ?_⟩
  exact (Machine.agreeExcept_write _ name first second).lockstep notFlag
    notLabels (unread.of_instructions rfl) budget

/-- A program that stores the identity of `bx`, goes round a loop once, moves
something into `bx`, and fails because it computes with the identity. -/
def movesIdentity : Program :=
  [⟨"mov", [.register "ax", .register "bx"]⟩, ⟨"label", [.label "again"]⟩,
    ⟨"cmp", [.register "cx", .literal 1]⟩, ⟨"je", [.label "store"]⟩,
    ⟨"inc", [.register "cx"]⟩, ⟨"jmp", [.label "again"]⟩,
    ⟨"label", [.label "store"]⟩, ⟨"move", [.register "bx", .label "again"]⟩,
    ⟨"inc", [.register "ax"]⟩]

theorem movesIdentity_runs_in_lockstep :
    declare standardRegisters Operation.standard = .ok standard ∧
      ∃ machine first second,
        standard.assemble movesIdentity = .ok machine ∧
        "bx" ∈ standardRegisters ∧ machine.NeverComputesWith "bx" ∧
        machine.write "bx" (.number 5) = first ∧
        machine.write "bx" (.labels .empty) = second ∧
        (∀ budget, Machine.Lockstep "bx" first second budget) ∧
        (first.run 7).machine.read? "bx" = some (.number 5) ∧
        (second.run 7).machine.read? "bx" = some (.labels .empty) ∧
        (first.run 8).machine.read? "bx" = some (.label "again") ∧
        standard.report (second.run 9) =
          .fault (.notANumber "ax" (.register "bx")) := by
  have declared : declare standardRegisters Operation.standard = .ok standard :=
    declare_eq_ok_iff.2 ⟨rfl, rfl⟩
  have assembles : standard.assemble movesIdentity = .ok _ := rfl
  have isRegister : "bx" ∈ standardRegisters := by decide
  have ⟨_, _, lockstep⟩ := unread_register_without_influence declared assembles
    isRegister (by decide) (.number 5) (.labels .empty)
  exact ⟨declared, _, _, _, assembles, isRegister, by decide, rfl, rfl,
    lockstep, rfl, rfl, rfl, rfl⟩

end Dialect

end RegisterMachine

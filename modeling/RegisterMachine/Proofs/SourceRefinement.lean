import Mathlib.Data.List.Basic
import RegisterMachine.Proofs.OperationRules
import RegisterMachine.Proofs.ReferenceAssembly
import RegisterMachine.Proofs.SourceSemantics

/-!
# The machine runs programs as they are written

An assembled program does on the machine what it does on its own lines.  A
machine agrees with a state when it still holds what assembly made of the
program, when the registers of the user and the flag are the same, and when its
counter is at the first instruction behind the position.  Every executed line
keeps this agreement, and so does every line that is passed over.
-/

namespace RegisterMachine

namespace Source

open Program

variable {dialect : Dialect} {program : Program} {machine : Machine}
  {state : State} {line : Invocation} {position : Nat}

/-- The counter is at the first instruction behind a position, or outside of the
instructions if there is none. -/
def StandsAt (program : Program) (counter : Counter) (position : Nat) : Prop :=
  counter.index? (instructions program).length =
    if addressAt program position < (instructions program).length then
      some (addressAt program position)
    else none

/-- A machine that runs a program is in the same state as the program. -/
structure Agrees (registers : List Name) (program : Program)
    (machine : Machine) (state : State) : Prop where
  instructions : machine.instructions = (instructions program).toArray
  labels : machine.labels? = some (labelTable program)
  registers : machine.registers.restrict registers = state.registers
  flag : machine.comparison = state.flag
  place : StandsAt program machine.counter state.position

theorem standsAt_of_address {counter : Counter}
    (value : counter.address.toInt = addressAt program position) :
    StandsAt program counter position :=
  Counter.index?_of_address _ value

theorem standsAt_of_outside {counter : Counter}
    (outside : counter.index? (instructions program).length = none)
    (atEnd : addressAt program position = (instructions program).length) :
    StandsAt program counter position := by
  rw [StandsAt, outside, atEnd, if_neg (Nat.lt_irrefl _)]

theorem addressAt_lt {instruction : Instruction}
    (atPosition : program[position]? = some line)
    (queued : line.instruction? = some instruction) :
    addressAt program position < (instructions program).length :=
  (List.getElem?_eq_some_iff.1 (instructions_addressAt atPosition queued)).1

/-- In front of a line that queues an instruction, the counter holds the address
of that instruction. -/
theorem StandsAt.address {counter : Counter} {instruction : Instruction}
    (place : StandsAt program counter position)
    (atPosition : program[position]? = some line)
    (queued : line.instruction? = some instruction) :
    counter.address.toInt = addressAt program position := by
  rw [StandsAt, if_pos (addressAt_lt atPosition queued)] at place
  exact (Counter.index?_eq_some_iff.1 place).1

theorem StandsAt.advance {counter : Counter} {instruction : Instruction}
    (short : program.length < 2 ^ 63)
    (place : StandsAt program counter position)
    (atPosition : program[position]? = some line)
    (queued : line.instruction? = some instruction) :
    StandsAt program counter.advance (position + 1) := by
  have value := place.address atPosition queued
  have inside := addressAt_lt atPosition queued
  have bound := length_instructions_le program
  apply standsAt_of_address
  rw [Counter.toInt_advance (by omega), value,
    addressAt_succ_of_queued atPosition queued]
  omega

theorem StandsAt.skip {counter : Counter}
    (place : StandsAt program counter position)
    (atPosition : program[position]? = some line)
    (silent : line.instruction? = none) :
    StandsAt program counter (position + 1) := by
  rwa [StandsAt, addressAt_succ_of_silent atPosition silent]

/-- A jump behind the last definition of a label goes to the instruction that
follows it. -/
theorem standsAt_label (short : program.length < 2 ^ 63) {address : Word}
    (recorded : address = Int64.ofNat (addressAt program position) - 1) :
    -1 ≤ address.toInt ∧
      StandsAt program (Counter.mk address).advance position := by
  have inside := addressAt_le program position
  have bound := length_instructions_le program
  have value : address.toInt = addressAt program position - 1 := by
    rw [recorded, Word.toInt_ofNat_sub_one (by omega)]
  refine ⟨by omega, standsAt_of_address ?_⟩
  rw [Counter.toInt_advance (by simp only; omega)]
  simp only
  omega

/-- A literal jump goes behind the instruction with that number, or leaves the
instructions.  The highest address does so by wrapping around. -/
theorem standsAt_literal (short : program.length < 2 ^ 63) {address : Word}
    (notBefore : -1 ≤ address.toInt) :
    StandsAt program (Counter.mk address).advance
      (literalPosition program address) := by
  have bound := length_instructions_le program
  have natural : address.toNatClampNeg = address.toInt.toNat := rfl
  unfold literalPosition
  split
  next first =>
    subst first
    apply standsAt_of_address
    rw [addressAt_zero]
    decide
  next notFirst =>
    have nonnegative : 0 ≤ address.toInt := by
      have notMinusOne : address.toInt ≠ -1 := by
        intro value
        exact notFirst (Int64.toInt_inj.1 value)
      omega
    split
    next behind =>
      refine standsAt_of_outside ?_
        (addressAt_of_length_le program (Nat.le_refl _))
      rw [Counter.index?_eq_none_iff]
      by_cases highest : address.toInt < 2 ^ 63 - 1
      · rw [Counter.toInt_advance highest]
        right
        simp only
        omega
      · have isHighest : address = Int64.maxValue := by
          rw [← Int64.toInt_inj]
          have upper := Int64.toInt_lt address
          have value : Int64.maxValue.toInt = 2 ^ 63 - 1 := by decide
          omega
        subst isHighest
        exact .inl (by decide)
    next inside =>
      apply standsAt_of_address
      rw [Counter.toInt_advance (by simp only; omega),
        addressAt_positionAfter (by omega)]
      simp only
      omega

theorem Agrees.fetch {instruction : Instruction} {registers : List Name}
    (agrees : Agrees registers program machine state)
    (atPosition : program[state.position]? = some line)
    (queued : line.instruction? = some instruction) :
    machine.fetch? = some instruction := by
  rw [Machine.fetch?_eq_some_iff]
  refine ⟨addressAt program state.position,
    agrees.place.address atPosition queued, ?_⟩
  rw [agrees.instructions, List.getElem?_toArray]
  exact instructions_addressAt atPosition queued

theorem Agrees.skip {registers : List Name}
    (agrees : Agrees registers program machine state)
    (atPosition : program[state.position]? = some line)
    (silent : line.instruction? = none) :
    Agrees registers program machine state.next where
  instructions := agrees.instructions
  labels := agrees.labels
  registers := agrees.registers
  flag := agrees.flag
  place := agrees.place.skip atPosition silent

theorem Agrees.advance {instruction : Instruction} {registers : List Name}
    (agrees : Agrees registers program machine state)
    (short : program.length < 2 ^ 63)
    (atPosition : program[state.position]? = some line)
    (queued : line.instruction? = some instruction) :
    Agrees registers program machine.advance state.next where
  instructions := agrees.instructions
  labels := agrees.labels
  registers := agrees.registers
  flag := agrees.flag
  place := agrees.place.advance short atPosition queued

theorem Agrees.store {name : Name}
    (agrees : Agrees dialect.registers program machine state)
    (isStandard : dialect.IsStandard) (isRegister : name ∈ dialect.registers)
    (cell : Cell) :
    Agrees dialect.registers program (machine.write name cell)
      (state.store name cell) where
  instructions := agrees.instructions
  labels := by
    refine (Machine.labels?_write machine cell ?_).trans agrees.labels
    rintro rfl
    exact Dialect.labelRegister_not_mem isStandard isRegister
  registers := by
    rw [State.store, ← agrees.registers]
    exact RegisterBank.restrict_write machine.registers _ name cell
  flag := by
    refine (Machine.comparison_write machine cell ?_).trans agrees.flag
    rintro rfl
    exact Dialect.comparisonRegister_not_mem isStandard isRegister
  place := agrees.place

theorem Agrees.compare
    (agrees : Agrees dialect.registers program machine state)
    (isStandard : dialect.IsStandard) (difference : Word) :
    Agrees dialect.registers program (machine.setComparison difference)
      (state.compare difference) where
  instructions := agrees.instructions
  labels := by rw [Machine.labels?_setComparison, agrees.labels]
  registers := by
    rw [State.compare, ← agrees.registers]
    exact RegisterBank.restrict_assign_of_not_mem machine _
      (Dialect.comparisonRegister_not_mem isStandard)
  flag := Machine.comparison_setComparison machine difference
  place := agrees.place

theorem Agrees.jump {registers : List Name} {address : Word}
    (agrees : Agrees registers program machine state)
    (place : StandsAt program (Counter.mk address).advance position) :
    Agrees registers program
      (Machine.advance { machine with counter := ⟨address⟩ })
      { state with position } where
  instructions := agrees.instructions
  labels := agrees.labels
  registers := agrees.registers
  flag := agrees.flag
  place := place

/-- The machine and the program find the same target, or the same reason to have
none. -/
theorem Agrees.target {registers : List Name}
    (agrees : Agrees registers program machine state)
    (short : program.length < 2 ^ 63) (argument : Argument) :
    match target program argument with
    | .ok position =>
      ∃ address, machine.target argument = .ok address ∧
        Counter.jump address = .ok ⟨address⟩ ∧
        StandsAt program (Counter.mk address).advance position
    | .error fault =>
      machine.target argument = .error fault ∨
        ∃ address, machine.target argument = .ok address ∧
          Counter.jump address = .error fault := by
  cases argument with
  | literal address =>
    have minusOne : (-1 : Int64).toInt = -1 := by decide
    by_cases before : address < -1
    · rw [Source.target, if_pos before]
      rw [Int64.lt_iff_toInt_lt, minusOne] at before
      exact .inr ⟨address, rfl, by rw [Counter.jump_eq, if_pos before]⟩
    · rw [Source.target, if_neg before]
      rw [Int64.lt_iff_toInt_lt, minusOne] at before
      have notBefore : -1 ≤ address.toInt := Int.not_lt.1 before
      exact ⟨address, rfl, Counter.jump_of_le notBefore,
        standsAt_literal short notBefore⟩
  | label name =>
    rw [Source.target, Machine.target, agrees.labels, Option.bind_some,
      get?_labelTable]
    cases labelPosition? name program with
    | none => exact .inl rfl
    | some position =>
      obtain ⟨notBefore, place⟩ : -1 ≤ (Int64.ofNat
          (addressAt program position) - 1).toInt ∧
            StandsAt program (Counter.mk _).advance position :=
        standsAt_label short rfl
      exact ⟨_, rfl, Counter.jump_of_le notBefore, place⟩
  | register name => exact .inl rfl

/-- The step of a machine answers to what a program does: it leads to a machine
that agrees with the next state, or fails with the same fault. -/
def StepsTo (registers : List Name) (program : Program) (machine : Machine) :
    Except Fault State → Prop
  | .ok next => ∃ after, machine.step = some (.done after) ∧
      Agrees registers program after next
  | .error fault => machine.step = some (.failed fault machine)

variable {mnemonic : Mnemonic} {arguments : List Argument}

theorem stepsTo_store {instruction : Instruction} {name : Name} {cell : Cell}
    (agrees : Agrees dialect.registers program machine state)
    (isStandard : dialect.IsStandard) (short : program.length < 2 ^ 63)
    (atPosition : program[state.position]? = some line)
    (queued : line.instruction? = some instruction)
    (worked : instruction.effect machine = .ok (.store name cell))
    (isRegister : name ∈ dialect.registers) :
    StepsTo dialect.registers program machine
      (.ok (state.store name cell).next) := by
  have fetched := agrees.fetch atPosition queued
  have stored := agrees.store isStandard isRegister cell
  exact ⟨_, Machine.step_of_effect fetched worked rfl,
    stored.advance short atPosition queued⟩

theorem stepsTo_move {destination source : Argument}
    (agrees : Agrees dialect.registers program machine state)
    (isStandard : dialect.IsStandard) (short : program.length < 2 ^ 63)
    (atPosition : program[state.position]? = some line)
    (queued : line.instruction? =
      some ⟨.ofMnemonic .mov, [destination, source]⟩)
    (covered : ∀ name, .register name ∈ [destination] →
      name ∈ dialect.registers) :
    StepsTo dialect.registers program machine
      (act program .mov [destination, source] state) := by
  have worked : Instruction.effect ⟨.ofMnemonic .mov, [destination, source]⟩
      machine = Mnemonic.moveEffect machine.registers destination source := rfl
  rw [act, ← agrees.registers, RegisterBank.destination_restrict _ _ covered]
  rw [Mnemonic.moveEffect] at worked
  cases found : machine.registers.destination .mov destination with
  | error fault =>
    rw [found] at worked
    exact Machine.step_of_fault (agrees.fetch atPosition queued) worked
  | ok register =>
    rw [found] at worked
    have isRegister := covered register.name
      (RegisterBank.destination_eq_ok found ▸ List.mem_singleton_self _)
    exact stepsTo_store agrees isStandard short atPosition queued worked
      isRegister

theorem stepsTo_arithmetic {instruction : Instruction}
    {compute : Word → Word → Word} {destination : Argument}
    {amount : Option Argument}
    (agrees : Agrees dialect.registers program machine state)
    (isStandard : dialect.IsStandard) (short : program.length < 2 ^ 63)
    (atPosition : program[state.position]? = some line)
    (queued : line.instruction? = some instruction)
    (covered : ∀ name, .register name ∈ destination :: amount.toList →
      name ∈ dialect.registers)
    (worked : instruction.effect machine =
      Mnemonic.arithmeticEffect machine.registers mnemonic compute destination
        amount) :
    StepsTo dialect.registers program machine (do
      let (name, result) ←
        state.registers.computed mnemonic compute destination amount
      return (state.store name (.number result)).next) := by
  rw [← agrees.registers, RegisterBank.computed_restrict _ _ _ covered]
  rw [Mnemonic.arithmeticEffect] at worked
  cases result : machine.registers.computed mnemonic compute destination
      amount with
  | error fault =>
    rw [result] at worked
    exact Machine.step_of_fault (agrees.fetch atPosition queued) worked
  | ok named =>
    obtain ⟨name, value⟩ := named
    rw [result] at worked
    have isRegister := covered name
      (RegisterBank.computed_eq_ok result ▸ List.mem_cons_self)
    exact stepsTo_store agrees isStandard short atPosition queued worked
      isRegister

theorem stepsTo_compare {instruction : Instruction} {destination : Argument}
    {amount : Option Argument}
    (agrees : Agrees dialect.registers program machine state)
    (isStandard : dialect.IsStandard) (short : program.length < 2 ^ 63)
    (atPosition : program[state.position]? = some line)
    (queued : line.instruction? = some instruction)
    (covered : ∀ name, .register name ∈ destination :: amount.toList →
      name ∈ dialect.registers)
    (worked : instruction.effect machine =
      Mnemonic.compareEffect machine.registers destination amount) :
    StepsTo dialect.registers program machine (do
      let (_, difference) ←
        state.registers.computed .cmp (· - ·) destination amount
      return (state.compare difference).next) := by
  have fetched := agrees.fetch atPosition queued
  rw [← agrees.registers, RegisterBank.computed_restrict _ _ _ covered]
  rw [Mnemonic.compareEffect] at worked
  cases result : machine.registers.computed .cmp (· - ·) destination
      amount with
  | error fault =>
    rw [result] at worked
    exact Machine.step_of_fault fetched worked
  | ok named =>
    obtain ⟨name, difference⟩ := named
    rw [result] at worked
    have compared := agrees.compare isStandard difference
    exact ⟨_, Machine.step_of_effect fetched worked rfl,
      compared.advance short atPosition queued⟩

theorem stepsTo_jump {condition : Condition} {argument : Argument}
    (agrees : Agrees dialect.registers program machine state)
    (short : program.length < 2 ^ 63)
    (atPosition : program[state.position]? = some line)
    (queued : line.instruction? =
      some ⟨.ofMnemonic (.jump condition), [argument]⟩) :
    StepsTo dialect.registers program machine
      (act program (.jump condition) [argument] state) := by
  have fetched := agrees.fetch atPosition queued
  have worked : Instruction.effect
      ⟨.ofMnemonic (.jump condition), [argument]⟩ machine =
        Mnemonic.jumpEffect machine condition argument := rfl
  rw [Mnemonic.jumpEffect, agrees.flag] at worked
  rw [act]
  by_cases taken : condition.holds state.flag
  · rw [if_pos taken] at worked ⊢
    have targets := agrees.target short argument
    cases found : target program argument with
    | ok position =>
      simp only [found] at targets
      obtain ⟨address, looked, jumped, place⟩ := targets
      rw [looked] at worked
      refine ⟨_, Machine.step_of_effect fetched worked ?_, agrees.jump place⟩
      rw [Effect.apply, Machine.jump, jumped]
      rfl
    | error fault =>
      simp only [found] at targets
      rcases targets with missing | ⟨address, looked, refused⟩
      · rw [missing] at worked
        exact Machine.step_of_fault fetched worked
      · rw [looked] at worked
        refine Machine.step_of_apply_failed fetched worked ?_
        rw [Effect.apply, Machine.jump, refused]
        rfl
  · rw [if_neg taken] at worked ⊢
    exact ⟨_, Machine.step_of_effect fetched worked rfl,
      agrees.advance short atPosition queued⟩

theorem stepsTo_act
    (agrees : Agrees dialect.registers program machine state)
    (isStandard : dialect.IsStandard) (short : program.length < 2 ^ 63)
    (acceptable : line.Acceptable dialect.registers)
    (atPosition : program[state.position]? = some line)
    (named : line.mnemonic? = some mnemonic) (notLabel : mnemonic ≠ .label) :
    StepsTo dialect.registers program machine
      (act program mnemonic line.arguments state) := by
  have queued := Invocation.instruction?_eq_some_iff.2
    ⟨mnemonic, named, notLabel, rfl⟩
  obtain ⟨accepts, covered, _⟩ := acceptable.operation
    (Dialect.named?_eq_none_of_register isStandard) named
  generalize line.arguments = arguments at queued accepts covered ⊢
  cases Mnemonic.shape_of_accepts accepts with
  | mov destination source =>
    refine stepsTo_move agrees isStandard short atPosition queued ?_
    intro name isDestination
    exact covered name
      (List.mem_cons.2 (.inl (List.mem_singleton.1 isDestination)))
  | inc destination amount =>
    rw [act, Option.head?_toList]
    exact stepsTo_arithmetic agrees isStandard short atPosition queued covered
      (Mnemonic.effect_inc machine destination amount)
  | dec destination amount =>
    rw [act, Option.head?_toList]
    exact stepsTo_arithmetic agrees isStandard short atPosition queued covered
      (Mnemonic.effect_dec machine destination amount)
  | cmp destination amount =>
    rw [act, Option.head?_toList]
    exact stepsTo_compare agrees isStandard short atPosition queued covered
      (Mnemonic.effect_cmp machine destination amount)
  | label argument => exact absurd rfl notLabel
  | jump condition argument =>
    exact stepsTo_jump agrees short atPosition queued

/-- The machine follows every move of the program: it stops where the program
stops, waits where it passes over a line, and makes a step where it executes
one. -/
theorem step_of_move
    (agrees : Agrees dialect.registers program machine state)
    (isStandard : dialect.IsStandard) (short : program.length < 2 ^ 63)
    (acceptable : ∀ line ∈ program, line.Acceptable dialect.registers) :
    match move program state with
    | .stop => machine.step = none
    | .skip => Agrees dialect.registers program machine state.next
    | .act next => ∃ after, machine.step = some (.done after) ∧
        Agrees dialect.registers program after next
    | .fail fault => machine.step = some (.failed fault machine) := by
  cases atPosition : program[state.position]? with
  | none =>
    have behind := List.getElem?_eq_none_iff.1 atPosition
    have place := agrees.place
    rw [StandsAt, addressAt_of_length_le program behind,
      if_neg (Nat.lt_irrefl _)] at place
    have queued : machine.queued = (instructions program).length := by
      rw [Machine.queued, agrees.instructions, List.size_toArray]
    rw [move_of_end atPosition]
    exact Machine.step_eq_none_iff.2
      (Machine.fetch?_eq_none_iff.2 (queued ▸ place))
  | some line =>
    cases queued : line.instruction? with
    | none =>
      rw [move_of_silent atPosition queued]
      exact agrees.skip atPosition queued
    | some instruction =>
      obtain ⟨mnemonic, named, notLabel, _⟩ :=
        Invocation.instruction?_eq_some_iff.1 queued
      have inProgram := List.mem_of_getElem? atPosition
      have steps := stepsTo_act agrees isStandard short
        (acceptable line inProgram) atPosition named notLabel
      rw [move_of_queued atPosition named notLabel]
      cases acted : act program mnemonic line.arguments state with
      | ok next =>
        rw [acted] at steps
        exact steps
      | error fault =>
        rw [acted] at steps
        exact steps

/-- A run of a machine and a run of a program end alike: both at the end, both
with the same fault or both with their budget used up, and in states that
agree. -/
inductive Corresponds (registers : List Name) (program : Program) :
    RegisterMachine.Ending → Ending → Prop where
  | halted {machine : Machine} {state : State}
      (agrees : Agrees registers program machine state) :
      Corresponds registers program (.halted machine) (.halted state)
  | faulted {machine : Machine} {state : State} (fault : Fault)
      (agrees : Agrees registers program machine state) :
      Corresponds registers program (.faulted fault machine)
        (.faulted fault state)
  | paused {machine : Machine} {state : State}
      (agrees : Agrees registers program machine state) :
      Corresponds registers program (.paused machine) (.paused state)

theorem corresponds_run
    (agrees : Agrees dialect.registers program machine state)
    (isStandard : dialect.IsStandard) (short : program.length < 2 ^ 63)
    (acceptable : ∀ line ∈ program, line.Acceptable dialect.registers)
    (budget : Nat) :
    Corresponds dialect.registers program (machine.run budget)
      (run program budget state) := by
  -- Lines passed over cost no budget, so the induction follows the program's
  -- own recursion, with the machine waiting.
  fun_induction run program budget state generalizing machine with
  | case1 state => exact .paused agrees
  | case2 budget state moved =>
    have stopped := step_of_move agrees isStandard short acceptable
    rw [moved] at stopped
    rw [Machine.run, stopped]
    exact .halted agrees
  | case3 budget state moved induction =>
    have waits := step_of_move agrees isStandard short acceptable
    rw [moved] at waits
    exact induction waits
  | case4 budget state next moved induction =>
    have steps := step_of_move agrees isStandard short acceptable
    rw [moved] at steps
    obtain ⟨after, stepped, agreesAfter⟩ := steps
    rw [Machine.run, stepped]
    exact induction agreesAfter
  | case5 budget state fault moved =>
    have failed := step_of_move agrees isStandard short acceptable
    rw [moved] at failed
    rw [Machine.run, failed]
    exact .faulted fault agrees

theorem agrees_assembled (isStandard : dialect.IsStandard) (program : Program) :
    Agrees dialect.registers program (assembled dialect.registers program)
      (.start dialect.registers) where
  instructions := rfl
  labels := labels?_assembled (Dialect.labelRegister_not_mem isStandard) program
  registers := RegisterBank.restrict_initialBank
    (Dialect.comparisonRegister_not_mem isStandard)
    (Dialect.labelRegister_not_mem isStandard)
  flag := comparison_assembled (Dialect.comparisonRegister_not_mem isStandard)
    program
  place := standsAt_of_address rfl

/-- An assembled program runs on the machine as it is written.  However many
instructions are executed, the registers of the user, the flag and the place in
the program are those of the program that runs over its own lines, and both stop
together or fail together with the same fault. -/
theorem run_refines_source {registers : List Name}
    (declared : Dialect.declare registers Operation.standard = .ok dialect)
    (short : program.length < 2 ^ 63)
    (assembles : dialect.assemble program = .ok machine) (budget : Nat) :
    Corresponds registers program (machine.run budget)
      (run program budget (.start registers)) := by
  have isStandard := Dialect.isStandard_of_declare declared
  obtain rfl := Dialect.registers_of_declare declared
  obtain ⟨acceptable, rfl⟩ :=
    (Dialect.assemble_eq_ok_iff isStandard).1 assembles
  exact corresponds_run (agrees_assembled isStandard program) isStandard short
    acceptable budget

/-- A loop whose label stands in front of every instruction. -/
def countingLoop : Program :=
  [⟨"label", [.label "top"]⟩, ⟨"inc", [.register "ax"]⟩, ⟨"bx", []⟩,
    ⟨"cmp", [.register "ax", .literal 2]⟩, ⟨"jl", [.label "top"]⟩]

theorem countingLoop_runs_as_written :
    Dialect.declare Dialect.standardRegisters Operation.standard =
        .ok Dialect.standard ∧
      ∃ machine, Dialect.standard.assemble countingLoop = .ok machine ∧
        Corresponds Dialect.standardRegisters countingLoop (machine.run 7)
          (run countingLoop 7 (.start Dialect.standardRegisters)) := by
  have declared : Dialect.declare Dialect.standardRegisters Operation.standard =
      .ok Dialect.standard := Dialect.declare_eq_ok_iff.2 ⟨rfl, rfl⟩
  exact ⟨declared, _, rfl, run_refines_source declared (by decide) rfl 7⟩

end Source

end RegisterMachine

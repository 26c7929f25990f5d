import RegisterMachine.Proofs.AssembledRun
import RegisterMachine.Proofs.SourceRefinement

/-!
# Programs one after the other

Two programs that define different labels and jump to their own labels only can
be put one behind the other.  Assembly then puts the second table behind the
first one and moves the labels of the second program by the length of the first
table, and a run goes through the first program and, when that has come to its
end, through the second one.  The programs are followed on their own lines,
where nothing has to be relocated but the position.
-/

namespace RegisterMachine

namespace Program

variable {first second program : Program} {label : Name} {position : Nat}

/-- Every jump of the program leads to a label that the program defines. -/
def Closed (program : Program) : Prop :=
  ∀ line ∈ program, ∀ condition, line.mnemonic? = some (.jump condition) →
    ∃ label, line.arguments = [.label label] ∧
      ⟨"label", [.label label]⟩ ∈ program

/-- No label is defined in both programs. -/
def LabelsApart (first second : Program) : Prop :=
  ∀ label, ⟨"label", [.label label]⟩ ∈ first →
    ⟨"label", [.label label]⟩ ∉ second

theorem addressAt_append_right (first second : Program) (position : Nat) :
    addressAt (first ++ second) (first.length + position) =
      (instructions first).length + addressAt second position := by
  rw [addressAt, List.take_length_add_append, instructions_append,
    List.length_append, addressAt]

theorem labelPosition?_append (label : Name) (first second : Program) :
    labelPosition? label (first ++ second) =
      match labelPosition? label second with
      | some position => some (first.length + position)
      | none => labelPosition? label first := by
  induction first with
  | nil =>
    cases inSecond : labelPosition? label second <;>
      simp [labelPosition?, inSecond]
  | cons line rest induction =>
    rw [List.cons_append, labelPosition?, induction]
    cases labelPosition? label second with
    | some position =>
      simp only [List.length_cons, Option.some.injEq]
      omega
    | none => rfl

/-- The labels of the first program keep their addresses, and those of the
second one move by the number of instructions of the first. -/
theorem get?_labelTable_append (short : (first ++ second).length < 2 ^ 63)
    (apart : LabelsApart first second) {address : Word} :
    (labelTable (first ++ second)).get? label = some address ↔
      (labelTable first).get? label = some address ∨
        ∃ recorded : Word, (labelTable second).get? label = some recorded ∧
          address.toInt = recorded.toInt + (instructions first).length := by
  rw [get?_labelTable, get?_labelTable, get?_labelTable, labelPosition?_append]
  cases inSecond : labelPosition? label second with
  | none =>
    have earlier : (labelPosition? label first).map (fun position =>
          Int64.ofNat (addressAt (first ++ second) position) - 1) =
        (labelPosition? label first).map fun position =>
          Int64.ofNat (addressAt first position) - 1 := by
      refine Option.map_congr fun position defined => ?_
      rw [addressAt_append first second (labelPosition?_le defined)]
    simp [earlier]
  | some position =>
    have notInFirst : labelPosition? label first = none := by
      apply labelPosition?_eq_none_of_not_mem
      intro inFirst
      apply apart label inFirst
      rw [← labelPosition?_isSome_iff, inSecond]
      rfl
    have inside := addressAt_le second position
    have queued := length_instructions_le (first ++ second)
    rw [instructions_append, List.length_append] at queued
    have value := Word.toInt_ofNat_sub_one
      (show (instructions first).length + addressAt second position < 2 ^ 63 by
        omega)
    have recorded := Word.toInt_ofNat_sub_one
      (show addressAt second position < 2 ^ 63 by omega)
    simp only [Option.map_some, notInFirst, Option.map_none, reduceCtorEq,
      false_or, Option.some.injEq, exists_eq_left', addressAt_append_right]
    rw [← Int64.toInt_inj, value, recorded]
    omega

end Program

namespace Source

open Program

variable {dialect : Dialect} {before program after context : Program}
  {state next : State} {machine other : Machine} {mnemonic : Mnemonic}
  {arguments : List Argument} {offset : Nat}

def State.shift (offset : Nat) (state : State) : State :=
  { state with position := offset + state.position }

def Move.shift (offset : Nat) : Move → Move
  | stop => stop
  | skip => skip
  | act next => act (next.shift offset)
  | fail fault => fail fault

@[simp]
theorem State.shift_zero (state : State) : state.shift 0 = state := by
  simp [shift]

theorem target_inside (before : Program) (apart : LabelsApart program after)
    {label : Name} (defined : ⟨"label", [.label label]⟩ ∈ program) :
    target (before ++ program ++ after) (.label label) =
      (target program (.label label)).map (before.length + ·) := by
  obtain ⟨position, found⟩ :=
    Option.isSome_iff_exists.1 (labelPosition?_isSome_iff.2 defined)
  have notBehind := labelPosition?_eq_none_of_not_mem (apart label defined)
  rw [target, labelPosition?_append, notBehind, labelPosition?_append, found,
    target, found]
  rfl

/-- The rest of a program matters to a line only as far as it jumps. -/
theorem act_shift
    (sameTarget : ∀ condition argument, mnemonic = .jump condition →
      arguments = [argument] →
      target context argument = (target program argument).map (offset + ·)) :
    act context mnemonic arguments (state.shift offset) =
      (act program mnemonic arguments state).map (State.shift offset) := by
  have sameRegisters : (state.shift offset).registers = state.registers := rfl
  unfold act
  split
  case h_1 destination source =>
    rw [sameRegisters]
    cases state.registers.destination .mov destination <;> rfl
  case h_2 destination amount =>
    rw [sameRegisters]
    cases state.registers.computed .inc (· + ·) destination amount.head? <;> rfl
  case h_3 destination amount =>
    rw [sameRegisters]
    cases state.registers.computed .dec (· - ·) destination amount.head? <;> rfl
  case h_4 destination amount =>
    rw [sameRegisters]
    cases state.registers.computed .cmp (· - ·) destination amount.head? <;> rfl
  case h_5 condition argument =>
    rw [sameTarget condition argument rfl rfl]
    have sameFlag : (state.shift offset).flag = state.flag := rfl
    by_cases taken : condition.holds state.flag = true
    · rw [if_pos (sameFlag ▸ taken), if_pos taken]
      cases target program argument <;> rfl
    · rw [if_neg (sameFlag ▸ taken), if_neg taken]
      rfl
  case h_6 => rfl

/-- A line of a closed program moves alike when the program stands inside of a
longer one. -/
theorem move_inside (before : Program) (closed : Closed program)
    (apart : LabelsApart program after)
    (inside : state.position < program.length) :
    move (before ++ program ++ after) (state.shift before.length) =
      (move program state).shift before.length := by
  obtain ⟨line, atPosition⟩ : ∃ line, program[state.position]? = some line :=
    ⟨_, List.getElem?_eq_getElem inside⟩
  have inContext : (before ++ program ++ after)[
      (state.shift before.length).position]? = some line := by
    rw [State.shift, List.append_assoc, List.getElem?_append_right (by simp),
      Nat.add_sub_cancel_left, List.getElem?_append_left inside, atPosition]
  cases queued : line.instruction? with
  | none =>
    rw [move_of_silent inContext queued, move_of_silent atPosition queued]
    rfl
  | some instruction =>
    obtain ⟨mnemonic, named, notLabel, _⟩ :=
      Invocation.instruction?_eq_some_iff.1 queued
    have acts : act (before ++ program ++ after) mnemonic line.arguments
        (state.shift before.length) =
        (act program mnemonic line.arguments state).map
          (State.shift before.length) := by
      apply act_shift
      rintro condition argument rfl isArgument
      obtain ⟨label, isLabel, defined⟩ := closed line
        (List.mem_of_getElem? atPosition) condition named
      obtain rfl : argument = .label label := by
        simpa [isArgument] using isLabel
      exact target_inside before apart defined
    rw [move_of_queued inContext named notLabel,
      move_of_queued atPosition named notLabel, acts]
    cases act program mnemonic line.arguments state <;> rfl

theorem positionAfter_le (program : Program) (number : Nat) :
    positionAfter program number ≤ program.length := by
  induction program generalizing number with
  | nil => exact Nat.le_refl 0
  | cons line rest induction =>
    unfold positionAfter
    split
    next => exact Nat.succ_le_succ (induction _)
    next => simp
    next => exact Nat.succ_le_succ (induction _)

theorem target_le {argument : Argument} {position : Nat}
    (found : target program argument = .ok position) :
    position ≤ program.length := by
  cases argument with
  | literal address =>
    rw [target] at found
    split at found
    next => cases found
    next =>
      cases found
      unfold literalPosition
      split
      next => exact Nat.zero_le _
      next =>
        split
        next => exact Nat.le_refl _
        next => exact positionAfter_le program _
  | label name =>
    rw [target] at found
    split at found
    next position defined =>
      cases found
      exact labelPosition?_le defined
    next => cases found
  | register name => cases found

theorem act_le (inside : state.position < program.length)
    (acted : act program mnemonic arguments state = .ok next) :
    next.position ≤ program.length := by
  unfold act at acted
  split at acted
  case h_5 condition argument =>
    split at acted
    next =>
      obtain ⟨position, found, done⟩ := bind_eq_ok_iff.1 acted
      cases done
      exact target_le found
    next =>
      cases acted
      exact inside
  case h_6 => cases acted
  all_goals
    obtain ⟨value, _, done⟩ := bind_eq_ok_iff.1 acted
    cases done
    exact inside

theorem move_le (moved : move program state = .act next) :
    next.position ≤ program.length := by
  unfold move at moved
  split at moved
  next => cases moved
  next line atPosition =>
    have inside := (List.getElem?_eq_some_iff.1 atPosition).1
    split at moved
    next => cases moved
    next => cases moved
    next =>
      split at moved
      next acted =>
        cases moved
        exact act_le inside acted
      next => cases moved

theorem length_le_of_stop (stops : move program state = .stop) :
    program.length ≤ state.position := by
  unfold move at stops
  split at stops
  next atEnd => exact List.getElem?_eq_none_iff.1 atEnd
  next =>
    split at stops
    next => cases stops
    next => cases stops
    next => split at stops <;> cases stops

/-- A machine that runs a program, and one that is at the same place of it in a
longer program, in which it stands `offset` lines further down. -/
def SideBySide (registers : List Name) (program context : Program)
    (offset : Nat) (machine other : Machine) : Prop :=
  ∃ state, state.position ≤ program.length ∧
    Agrees registers program machine state ∧
    Agrees registers context other (state.shift offset)

/-- A step inside of a program keeps machines side by side.  When the machine of
the program alone stops, both are at its end. -/
theorem step_sideBySide (isStandard : dialect.IsStandard)
    (short : program.length < 2 ^ 63)
    (acceptable : ∀ line ∈ program, line.Acceptable dialect.registers)
    (contextShort : context.length < 2 ^ 63)
    (contextAcceptable : ∀ line ∈ context, line.Acceptable dialect.registers)
    (inContext : ∀ state : State, state.position < program.length →
      move context (state.shift offset) = (move program state).shift offset)
    (together : SideBySide dialect.registers program context offset machine
      other) :
    (machine.step = none ∧ ∃ state, state.position = program.length ∧
        Agrees dialect.registers program machine state ∧
        Agrees dialect.registers context other (state.shift offset)) ∨
      ∃ outcome otherOutcome, machine.step = some outcome ∧
        other.step = some otherOutcome ∧
        Outcome.Alike (SideBySide dialect.registers program context offset)
          outcome otherOutcome := by
  obtain ⟨state, bounded, agrees, otherAgrees⟩ := together
  -- While lines are passed over, the machines wait.
  induction lines : program.length - state.position generalizing state with
  | zero =>
    have atEnd : state.position = program.length := by omega
    have follows := step_of_move agrees isStandard short acceptable
    rw [move_of_end (List.getElem?_eq_none (Nat.le_of_eq atEnd.symm))]
      at follows
    exact .inl ⟨follows, state, atEnd, agrees, otherAgrees⟩
  | succ lines induction =>
    have inside : state.position < program.length := by omega
    have follows := step_of_move agrees isStandard short acceptable
    have otherFollows :=
      step_of_move otherAgrees isStandard contextShort contextAcceptable
    rw [inContext state inside] at otherFollows
    cases moved : move program state with
    | stop => exact absurd inside (Nat.not_lt.2 (length_le_of_stop moved))
    | skip =>
      rw [moved] at follows otherFollows
      exact induction state.next inside follows otherFollows
        (by simp only [State.next]; omega)
    | act next =>
      rw [moved] at follows otherFollows
      obtain ⟨after, stepped, agreesAfter⟩ := follows
      obtain ⟨otherAfter, otherStepped, otherAgreesAfter⟩ := otherFollows
      exact .inr ⟨_, _, stepped, otherStepped, .done
        ⟨next, move_le moved, agreesAfter, otherAgreesAfter⟩⟩
    | fail fault =>
      rw [moved] at follows otherFollows
      exact .inr ⟨_, _, follows, otherFollows, .failed fault
        ⟨state, bounded, agrees, otherAgrees⟩⟩

end Source

namespace Machine

/-- The machine of an assembled program that takes over the registers of the
user and the flag from a machine on which another program has ended. -/
def resume (machine ended : Machine) : Machine :=
  { machine with registers := ended.registers }.setLabels machine.labelTable

/-- The run of the machine comes to its end or fails. -/
def Returns (machine : Machine) : Prop :=
  ∃ budget, ¬ ∃ later, machine.run budget = .paused later

theorem returns_of_halted {machine final : Machine} (budget : Nat)
    (halts : machine.run budget = .halted final) : machine.Returns := by
  refine ⟨budget, ?_⟩
  rw [halts]
  exact nofun

end Machine

namespace Source

open Program

variable {dialect : Dialect} {program context first second : Program}
  {offset : Nat} {machine other : Machine}

theorem SideBySide.sameResults {registers : List Name}
    (together : SideBySide registers program context offset machine other) :
    Machine.SameResults registers machine other := by
  obtain ⟨state, _, agrees, otherAgrees⟩ := together
  refine ⟨?_, agrees.flag.trans otherAgrees.flag.symm⟩
  intro name isRegister
  have sameRegisters : machine.registers.restrict registers =
      other.registers.restrict registers :=
    agrees.registers.trans otherAgrees.registers.symm
  rw [Machine.read?, ← RegisterBank.read?_restrict _ isRegister, sameRegisters,
    RegisterBank.read?_restrict _ isRegister, Machine.read?]

theorem agrees_resume (isStandard : dialect.IsStandard) (program : Program)
    (ended : Machine) :
    Agrees dialect.registers program
      ((assembled dialect.registers program).resume ended)
      ⟨0, ended.registers.restrict dialect.registers, ended.comparison⟩ where
  instructions := rfl
  labels := by
    rw [Machine.resume, Machine.labels?_setLabels,
      labelTable_assembled (Dialect.labelRegister_not_mem isStandard)]
  registers := RegisterBank.restrict_assign_of_not_mem _ _
    (Dialect.labelRegister_not_mem isStandard)
  flag := Machine.comparison_setLabels _ _
  place := standsAt_of_address rfl

/-- Two programs that can be put one behind the other. -/
structure Composable (dialect : Dialect) (first second : Program) :
    Prop where
  isStandard : dialect.IsStandard
  short : (first ++ second).length < 2 ^ 63
  acceptable : ∀ line ∈ first ++ second, line.Acceptable dialect.registers
  apart : LabelsApart first second
  firstClosed : Closed first
  secondClosed : Closed second

/-- Both machines are at the same place of the first program. -/
def InFirst (registers : List Name) (first second : Program) :
    Machine → Machine → Prop :=
  SideBySide registers first (first ++ second) 0

/-- Both machines are at the same place of the second program. -/
def InSecond (registers : List Name) (first second : Program) :
    Machine → Machine → Prop :=
  SideBySide registers second (first ++ second) first.length

namespace Composable

variable (composable : Composable dialect first second)
include composable

theorem step_first
    (together : InFirst dialect.registers first second machine other) :
    (machine.step = none ∧ ∃ state, state.position = first.length ∧
        Agrees dialect.registers first machine state ∧
        Agrees dialect.registers (first ++ second) other (state.shift 0)) ∨
      ∃ outcome otherOutcome, machine.step = some outcome ∧
        other.step = some otherOutcome ∧
        Outcome.Alike (InFirst dialect.registers first second) outcome
          otherOutcome := by
  have short := composable.short
  rw [List.length_append] at short
  refine step_sideBySide composable.isStandard (by omega) ?_ composable.short
    composable.acceptable ?_ together
  · intro line inFirst
    exact composable.acceptable line (List.mem_append_left second inFirst)
  · intro state inside
    exact move_inside [] composable.firstClosed composable.apart inside

theorem step_second
    (together : InSecond dialect.registers first second machine other) :
    Option.Rel (Outcome.Alike (InSecond dialect.registers first second))
      machine.step other.step := by
  have short := composable.short
  rw [List.length_append] at short
  have acceptable : ∀ line ∈ second, line.Acceptable dialect.registers := by
    intro line inSecond
    exact composable.acceptable line (List.mem_append_right first inSecond)
  have inContext (state : State) (inside : state.position < second.length) :
      move (first ++ second) (state.shift first.length) =
        (move second state).shift first.length := by
    have nothingBehind : LabelsApart second [] := fun _ _ => List.not_mem_nil
    have moves :=
      move_inside first composable.secondClosed nothingBehind inside
    rwa [List.append_nil] at moves
  rcases step_sideBySide composable.isStandard (by omega) acceptable
      composable.short composable.acceptable inContext together with
    ⟨stops, state, atEnd, _, otherAgrees⟩ |
      ⟨outcome, otherOutcome, stepped, otherStepped, alike⟩
  · have otherFollows := step_of_move otherAgrees composable.isStandard
      composable.short composable.acceptable
    have outside : (first ++ second)[(state.shift first.length).position]? =
        none := by
      rw [State.shift, atEnd, ← List.length_append]
      exact List.getElem?_eq_none (Nat.le_refl _)
    rw [move_of_end outside] at otherFollows
    rw [stops, otherFollows]
    exact .none
  · rw [stepped, otherStepped]
    exact .some alike

/-- As long as the first program does not come to its end, it makes no
difference that another one follows. -/
theorem run_first {budget : Nat}
    (together : InFirst dialect.registers first second machine other)
    (goesOn : ∀ final, machine.run budget ≠ .halted final) :
    Ending.Alike (InFirst dialect.registers first second) (machine.run budget)
      (other.run budget) := by
  refine Machine.run_alike_of_not_halted ?_ together goesOn
  intro machine other outcome together stepped
  rcases composable.step_first together with
    ⟨stops, _⟩ | ⟨_, otherOutcome, again, otherStepped, alike⟩
  · rw [stops] at stepped
    cases stepped
  · obtain rfl := Option.some.inj (again.symm.trans stepped)
    exact ⟨otherOutcome, otherStepped, alike⟩

/-- When the first program has come to its end, the whole one is at the start of
the second program. -/
theorem hand_over {budget : Nat} {final : Machine}
    (together : InFirst dialect.registers first second machine other)
    (halts : machine.run budget = .halted final) :
    ∃ later, other.run (machine.attempts budget).length = .paused later ∧
      InSecond dialect.registers first second
        ((assembled dialect.registers second).resume final) later := by
  -- The whole program does not halt here, so the first one is looked at just
  -- before it finds out that nothing is left to do.
  obtain ⟨steps, enough, pauses, ends⟩ := Machine.run_eq_halted_iff.1 halts
  have goesOn (halted : Machine) : machine.run steps ≠ .halted halted := by
    rw [pauses]
    exact nofun
  have alike := composable.run_first together goesOn
  rw [(Machine.halts_after pauses ends enough).2]
  rw [pauses] at alike
  generalize other.run steps = ending at alike ⊢
  cases alike with
  | @paused _ later stayTogether =>
    refine ⟨later, rfl, ?_⟩
    rcases composable.step_first stayTogether with
      ⟨_, state, atEnd, agrees, otherAgrees⟩ | ⟨_, _, stepped, _⟩
    · have resumes :=
        agrees_resume composable.isStandard second final
      rw [agrees.registers, agrees.flag] at resumes
      refine ⟨_, Nat.zero_le _, resumes, ?_⟩
      rw [State.shift_zero] at otherAgrees
      rw [State.shift, Nat.add_zero, ← atEnd]
      exact otherAgrees
    · rw [Machine.step_eq_none_iff.2 ends] at stepped
      cases stepped

/-- Behind the first program the second one runs as it would by itself. -/
theorem run_second {budget : Nat} {final : Machine}
    (together : InFirst dialect.registers first second machine other)
    (halts : machine.run budget = .halted final) (rest : Nat) :
    Ending.Alike (InSecond dialect.registers first second)
      (((assembled dialect.registers second).resume final).run rest)
      (other.run ((machine.attempts budget).length + rest)) := by
  obtain ⟨later, pauses, resumed⟩ := composable.hand_over together halts
  rw [Machine.run_add rest pauses]
  exact Machine.run_alike (fun _ _ => composable.step_second) resumed rest

/-- The whole program returns if the first one fails, and if the second one
returns after it. -/
theorem returns_iff
    (together : InFirst dialect.registers first second machine other) :
    other.Returns ↔
      (∃ budget fault stopped, machine.run budget = .faulted fault stopped) ∨
        ∃ budget final, machine.run budget = .halted final ∧
          ((assembled dialect.registers second).resume final).Returns := by
  constructor
  · rintro ⟨budget, returns⟩
    cases ended : machine.run budget with
    | faulted fault stopped => exact .inl ⟨budget, fault, stopped, ended⟩
    | halted final =>
      refine .inr ⟨budget, final, ended, budget, ?_⟩
      rw [(composable.run_second together ended budget).pauses_iff]
      rintro ⟨later, pauses⟩
      exact returns (Machine.paused_of_le pauses (Nat.le_add_left _ _))
    | paused later =>
      have goesOn (final : Machine) : machine.run budget ≠ .halted final := by
        rw [ended]
        exact nofun
      have alike := composable.run_first together goesOn
      exact absurd (alike.pauses_iff.1 ⟨later, ended⟩) returns
  · rintro (⟨budget, fault, stopped, fails⟩ |
      ⟨budget, final, halts, rest, returns⟩)
    · have goesOn (final : Machine) : machine.run budget ≠ .halted final := by
        rw [fails]
        exact nofun
      refine ⟨budget, ?_⟩
      rw [← (composable.run_first together goesOn).pauses_iff, fails]
      exact nofun
    · refine ⟨(machine.attempts budget).length + rest, ?_⟩
      rw [← (composable.run_second together halts rest).pauses_iff]
      exact returns

theorem inFirst_assembled :
    InFirst dialect.registers first second (assembled dialect.registers first)
      (assembled dialect.registers (first ++ second)) := by
  refine ⟨.start dialect.registers, Nat.zero_le _,
    agrees_assembled composable.isStandard first, ?_⟩
  rw [State.shift_zero]
  exact agrees_assembled composable.isStandard (first ++ second)

end Composable

/-- Programs compose.  The table of the two programs together is the table of
the first followed by that of the second, whose labels move by the length of
the first.  A run goes through the first program and fails where it fails, and
when the first program has come to its end, the run is that of the second
program with the registers and the flag that the first one left. -/
theorem programs_compose {registers : List Name}
    {firstMachine secondMachine : Machine}
    (declared : Dialect.declare registers Operation.standard = .ok dialect)
    (short : (first ++ second).length < 2 ^ 63)
    (firstAssembles : dialect.assemble first = .ok firstMachine)
    (secondAssembles : dialect.assemble second = .ok secondMachine)
    (apart : LabelsApart first second) (firstClosed : Closed first)
    (secondClosed : Closed second) :
    ∃ machine, dialect.assemble (first ++ second) = .ok machine ∧
      machine.instructions =
        firstMachine.instructions ++ secondMachine.instructions ∧
      (∀ label address, machine.labelTable.get? label = some address ↔
        firstMachine.labelTable.get? label = some address ∨
          ∃ recorded : Word,
            secondMachine.labelTable.get? label = some recorded ∧
            address.toInt = recorded.toInt + firstMachine.queued) ∧
      (∀ budget, (∀ final, firstMachine.run budget ≠ .halted final) →
        Ending.Alike (Machine.SameResults registers) (firstMachine.run budget)
          (machine.run budget)) ∧
      (∀ budget final, firstMachine.run budget = .halted final →
        ∀ rest, Ending.Alike (Machine.SameResults registers)
          ((secondMachine.resume final).run rest)
          (machine.run ((firstMachine.attempts budget).length + rest))) ∧
      (machine.Returns ↔
        (∃ budget fault stopped,
          firstMachine.run budget = .faulted fault stopped) ∨
        ∃ budget final, firstMachine.run budget = .halted final ∧
          (secondMachine.resume final).Returns) := by
  have isStandard := Dialect.isStandard_of_declare declared
  obtain rfl := Dialect.registers_of_declare declared
  obtain ⟨firstAcceptable, rfl⟩ :=
    (Dialect.assemble_eq_ok_iff isStandard).1 firstAssembles
  obtain ⟨secondAcceptable, rfl⟩ :=
    (Dialect.assemble_eq_ok_iff isStandard).1 secondAssembles
  have acceptable : ∀ line ∈ first ++ second,
      line.Acceptable dialect.registers := by
    intro line inProgram
    rcases List.mem_append.1 inProgram with inFirst | inSecond
    · exact firstAcceptable line inFirst
    · exact secondAcceptable line inSecond
  have composable : Composable dialect first second :=
    ⟨isStandard, short, acceptable, apart, firstClosed, secondClosed⟩
  have labelFree := Dialect.labelRegister_not_mem isStandard
  have start := composable.inFirst_assembled
  refine ⟨assembled dialect.registers (first ++ second),
    (Dialect.assemble_eq_ok_iff isStandard).2 ⟨acceptable, rfl⟩, ?_, ?_, ?_, ?_,
    composable.returns_iff start⟩
  · simp [assembled]
  · intro label address
    simp only [labelTable_assembled labelFree, queued_assembled]
    exact get?_labelTable_append short apart
  · intro budget goesOn
    exact (composable.run_first start goesOn).mono fun _ _ together =>
      together.sameResults
  · intro budget final halts rest
    exact (composable.run_second start halts rest).mono fun _ _ together =>
      together.sameResults

/-- A program that leaves by a label at its very end. -/
def leavesByLabel : Program :=
  [⟨"inc", [.register "bx"]⟩, ⟨"jmp", [.label "out"]⟩,
    ⟨"inc", [.register "ax"]⟩, ⟨"label", [.label "out"]⟩]

/-- The loop starts with its label, so that the jump of the first program and
that of the loop lead to the same instruction. -/
theorem leavesByLabel_composes_with_countingLoop :
    Dialect.declare Dialect.standardRegisters Operation.standard =
        .ok Dialect.standard ∧
      LabelsApart leavesByLabel countingLoop ∧ Closed leavesByLabel ∧
      Closed countingLoop ∧
      ∃ firstMachine secondMachine machine,
        Dialect.standard.assemble leavesByLabel = .ok firstMachine ∧
        Dialect.standard.assemble countingLoop = .ok secondMachine ∧
        Dialect.standard.assemble (leavesByLabel ++ countingLoop) =
          .ok machine ∧
        machine.labelTable.get? "out" = some 2 ∧
        machine.labelTable.get? "top" = some 2 ∧
        machine.Returns := by
  have declared : Dialect.declare Dialect.standardRegisters Operation.standard =
      .ok Dialect.standard := Dialect.declare_eq_ok_iff.2 ⟨rfl, rfl⟩
  have apart : LabelsApart leavesByLabel countingLoop := by
    intro label inFirst
    obtain rfl : label = "out" := by
      simpa [leavesByLabel] using inFirst
    decide
  have firstClosed : Closed leavesByLabel := by
    intro line inProgram condition jumps
    simp only [leavesByLabel, List.mem_cons, List.not_mem_nil, or_false]
      at inProgram
    rcases inProgram with rfl | rfl | rfl | rfl
    · cases jumps
    · exact ⟨"out", rfl, by decide⟩
    · cases jumps
    · cases jumps
  have secondClosed : Closed countingLoop := by
    intro line inProgram condition jumps
    simp only [countingLoop, List.mem_cons, List.not_mem_nil, or_false]
      at inProgram
    rcases inProgram with rfl | rfl | rfl | rfl | rfl
    · cases jumps
    · cases jumps
    · cases jumps
    · cases jumps
    · exact ⟨"top", rfl, by decide⟩
  have firstAssembles : Dialect.standard.assemble leavesByLabel =
      .ok (assembled Dialect.standardRegisters leavesByLabel) := rfl
  have secondAssembles : Dialect.standard.assemble countingLoop =
      .ok (assembled Dialect.standardRegisters countingLoop) := rfl
  obtain ⟨machine, assembles, _, labels, _, _, returns⟩ :=
    programs_compose declared (by decide) firstAssembles secondAssembles apart
      firstClosed secondClosed
  refine ⟨declared, apart, firstClosed, secondClosed, _, _, machine,
    firstAssembles, secondAssembles, assembles, ?_, ?_, ?_⟩
  · exact (labels "out" 2).2 (.inl rfl)
  · exact (labels "top" 2).2 (.inr ⟨-1, rfl, by decide⟩)
  · exact returns.2 (.inr ⟨3, _, rfl, Machine.returns_of_halted 7 rfl⟩)

end Source

end RegisterMachine

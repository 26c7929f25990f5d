import RegisterMachine.Euclid
import RegisterMachine.Proofs.SourceRefinement

/-!
# Programs that cannot fail

Four conditions on the text of a program keep it from failing when it runs:
destinations are registers, moved values are literals, amounts are no labels,
and every jump has a target.  Under these conditions the registers of the user
always hold numbers, and no line fails in a state where they do.
-/

namespace RegisterMachine

namespace Program

/-- The program has a place that a jump with this argument leads to. -/
def HasTarget (program : Program) (argument : Argument) : Prop :=
  (∃ address : Word, argument = .literal address ∧ -1 ≤ address) ∨
    ∃ label, argument = .label label ∧ ⟨"label", [.label label]⟩ ∈ program

/-- The conditions under which a program cannot fail. -/
structure WellFormed (program : Program) : Prop where
  destination : ∀ line ∈ program,
    line.mnemonic? ∈ [some .mov, some .inc, some .dec, some .cmp] →
      ∃ name, line.arguments[0]? = some (.register name)
  moved : ∀ line ∈ program, line.mnemonic? = some .mov →
    ∃ value, line.arguments[1]? = some (.literal value)
  amount : ∀ line ∈ program,
    line.mnemonic? ∈ [some .inc, some .dec, some .cmp] →
      ∀ label, line.arguments[1]? ≠ some (.label label)
  target : ∀ line ∈ program, ∀ condition argument,
    line.mnemonic? = some (.jump condition) →
      line.arguments[0]? = some argument → HasTarget program argument

end Program

namespace RegisterBank

/-- The bank binds all of these names, and each of them to a number. -/
def Numeric (names : List Name) (bank : RegisterBank) : Prop :=
  ∀ name ∈ names, ∃ value, bank.read? name = some (.number value)

variable {bank : RegisterBank} {names : List Name} {name : Name}

theorem numeric_zero (names : List Name) :
    Numeric names ⟨names.map .zero⟩ :=
  fun _ isName => ⟨0, read?_zero isName⟩

theorem Numeric.write (numeric : Numeric names bank) (name : Name)
    (value : Word) : Numeric names (bank.write name (.number value)) := by
  intro wanted isName
  obtain ⟨held, reads⟩ := numeric wanted isName
  rw [read?_write, reads]
  by_cases same : wanted = name
  · exact ⟨value, by simp [same]⟩
  · exact ⟨held, by simp [same]⟩

theorem Numeric.register (numeric : Numeric names bank)
    (isName : name ∈ names) :
    ∃ register value, bank.register name = .ok register ∧
      register.name = name ∧ register.number = .ok value := by
  obtain ⟨value, reads⟩ := numeric name isName
  rw [read?, Option.map_eq_some_iff] at reads
  obtain ⟨register, found, holds⟩ := reads
  exact ⟨register, value, register_eq_ok_iff.2 found, name_of_find? found,
    Register.number_eq_ok_iff.2 holds⟩

theorem Numeric.amount (numeric : Numeric names bank)
    {argument : Option Argument}
    (covered : ∀ name, .register name ∈ argument.toList → name ∈ names)
    (noLabel : ∀ label, argument ≠ some (.label label)) :
    ∃ value, bank.amount argument = .ok value := by
  match argument with
  | none => exact ⟨1, rfl⟩
  | some (.literal value) => exact ⟨value, rfl⟩
  | some (.register name) =>
    obtain ⟨register, value, found, _, number⟩ :=
      numeric.register (covered name (by simp))
    refine ⟨value, ?_⟩
    rw [RegisterBank.amount, found]
    exact number
  | some (.label label) => exact absurd rfl (noLabel label)

theorem Numeric.computed (numeric : Numeric names bank) (mnemonic : Mnemonic)
    (compute : Word → Word → Word) {amount : Option Argument}
    (covered : ∀ wanted, .register wanted ∈ .register name :: amount.toList →
      wanted ∈ names)
    (noLabel : ∀ label, amount ≠ some (.label label)) :
    ∃ result, bank.computed mnemonic compute (.register name) amount =
      .ok (name, result) := by
  obtain ⟨operand, amountRead⟩ := numeric.amount
    (fun wanted isAmount => covered wanted (List.mem_cons_of_mem _ isAmount))
    noLabel
  obtain ⟨register, current, found, sameName, number⟩ :=
    numeric.register (covered name List.mem_cons_self)
  refine ⟨compute current operand, ?_⟩
  rw [RegisterBank.computed, amountRead, destination, found]
  simp only [bind, Except.bind, number, sameName, pure, Except.pure]

end RegisterBank

namespace Source

open Program

variable {registers : List Name} {program : Program} {state : State}
  {line : Invocation} {mnemonic : Mnemonic} {arguments : List Argument}

theorem target_of_hasTarget {argument : Argument}
    (hasTarget : HasTarget program argument) :
    ∃ position, target program argument = .ok position := by
  rcases hasTarget with ⟨address, rfl, notBefore⟩ | ⟨label, rfl, defined⟩
  · exact ⟨_, if_neg (Int64.not_lt.2 notBefore)⟩
  · obtain ⟨position, found⟩ :=
      Option.isSome_iff_exists.1 (labelPosition?_isSome_iff.2 defined)
    exact ⟨position, by rw [target, found]⟩

/-- The arguments of a calculation are its destination and perhaps an amount. -/
theorem register_and_amount {name : Name}
    (accepts : (Arity.mk 1 2).accepts arguments.length)
    (first : arguments[0]? = some (.register name)) :
    arguments = .register name :: arguments[1]?.toList := by
  obtain ⟨destination, amount, rfl⟩ :=
    Mnemonic.destination_and_amount? accepts
  obtain rfl : destination = .register name := by simpa using first
  cases amount <;> rfl

/-- A calculation on numbers succeeds. -/
theorem computed_of_numeric
    (numeric : state.registers.Numeric registers)
    (accepts : (Arity.mk 1 2).accepts arguments.length)
    (covered : ∀ name, .register name ∈ arguments → name ∈ registers)
    (first : ∃ name, arguments[0]? = some (.register name))
    (noLabel : ∀ label, arguments[1]? ≠ some (.label label))
    (compute : Word → Word → Word) :
    ∃ name result amount, arguments = .register name :: amount ∧
      state.registers.computed mnemonic compute (.register name) amount.head? =
        .ok (name, result) := by
  obtain ⟨name, first⟩ := first
  have split := register_and_amount accepts first
  rw [split] at covered
  obtain ⟨result, worked⟩ :=
    numeric.computed mnemonic compute covered noLabel
  refine ⟨name, result, _, split, ?_⟩
  rw [← worked]
  cases arguments[1]? <;> rfl

/-- A line of a well-formed program does not fail in a state where the registers
hold numbers, and they hold numbers afterwards. -/
theorem act_of_wellFormed (wellFormed : WellFormed program)
    (numeric : state.registers.Numeric registers)
    (inProgram : line ∈ program)
    (accepts : mnemonic.arity.accepts line.arguments.length)
    (covered : ∀ name, .register name ∈ line.arguments → name ∈ registers)
    (named : line.mnemonic? = some mnemonic) (notLabel : mnemonic ≠ .label) :
    ∃ next, act program mnemonic line.arguments state = .ok next ∧
      next.registers.Numeric registers := by
  have destination := wellFormed.destination line inProgram
  have moved := wellFormed.moved line inProgram
  have amount := wellFormed.amount line inProgram
  have hasTarget := wellFormed.target line inProgram
  -- The conditions speak of positions in the list of arguments, and the arity
  -- says how many there are.
  generalize line.arguments = arguments at *
  cases mnemonic with
  | mov =>
    obtain ⟨first, second, rfl⟩ :=
      List.length_eq_two.1 ((Arity.exactly_accepts_iff 2 _).1 accepts)
    obtain ⟨name, isRegister⟩ := destination (by simp [named])
    obtain ⟨value, isLiteral⟩ := moved named
    obtain rfl : first = .register name := by simpa using isRegister
    obtain rfl : second = .literal value := by simpa using isLiteral
    obtain ⟨register, _, found, _, _⟩ :=
      numeric.register (covered name List.mem_cons_self)
    refine ⟨(state.store register.name (.number value)).next, ?_,
      numeric.write register.name value⟩
    rw [act, RegisterBank.destination, found]
    rfl
  | inc =>
    obtain ⟨name, result, rest, rfl, worked⟩ :=
      computed_of_numeric numeric accepts covered (destination (by simp [named]))
        (amount (by simp [named])) (· + ·)
    refine ⟨(state.store name (.number result)).next, ?_,
      numeric.write name result⟩
    rw [act, worked]
    rfl
  | dec =>
    obtain ⟨name, result, rest, rfl, worked⟩ :=
      computed_of_numeric numeric accepts covered (destination (by simp [named]))
        (amount (by simp [named])) (· - ·)
    refine ⟨(state.store name (.number result)).next, ?_,
      numeric.write name result⟩
    rw [act, worked]
    rfl
  | cmp =>
    obtain ⟨name, result, rest, rfl, worked⟩ :=
      computed_of_numeric numeric accepts covered (destination (by simp [named]))
        (amount (by simp [named])) (· - ·)
    refine ⟨(state.compare result).next, ?_, numeric⟩
    rw [act, worked]
    rfl
  | label => exact absurd rfl notLabel
  | jump condition =>
    obtain ⟨argument, rfl⟩ :=
      List.length_eq_one_iff.1 ((Arity.exactly_accepts_iff 1 _).1 accepts)
    rw [act]
    by_cases taken : condition.holds state.flag
    · obtain ⟨position, found⟩ :=
        target_of_hasTarget (hasTarget condition argument named rfl)
      rw [if_pos taken, found]
      exact ⟨_, rfl, numeric⟩
    · rw [if_neg taken]
      exact ⟨_, rfl, numeric⟩

theorem move_of_wellFormed (wellFormed : WellFormed program)
    (acceptable : ∀ line ∈ program, line.Acceptable registers)
    (apart : ∀ name ∈ registers, Mnemonic.named? name = none)
    (numeric : state.registers.Numeric registers) :
    match move program state with
    | .stop | .skip => True
    | .act next => next.registers.Numeric registers
    | .fail _ => False := by
  cases atPosition : program[state.position]? with
  | none => rw [move_of_end atPosition]; trivial
  | some line =>
    have inProgram := List.mem_of_getElem? atPosition
    cases queued : line.instruction? with
    | none => rw [move_of_silent atPosition queued]; trivial
    | some instruction =>
      obtain ⟨mnemonic, named, notLabel, _⟩ :=
        Invocation.instruction?_eq_some_iff.1 queued
      obtain ⟨accepts, covered, _⟩ :=
        (acceptable line inProgram).operation (apart line.name) named
      obtain ⟨next, acted, numericNext⟩ := act_of_wellFormed wellFormed numeric
        inProgram accepts covered named notLabel
      rw [move_of_queued atPosition named notLabel, acted]
      exact numericNext

/-- A well-formed program does not fail on its own lines. -/
theorem run_of_wellFormed (wellFormed : WellFormed program)
    (acceptable : ∀ line ∈ program, line.Acceptable registers)
    (apart : ∀ name ∈ registers, Mnemonic.named? name = none)
    (numeric : state.registers.Numeric registers) (budget : Nat)
    (fault : Fault) (stopped : State) :
    run program budget state ≠ .faulted fault stopped := by
  have safe (state : State) (numeric : state.registers.Numeric registers) :=
    move_of_wellFormed wellFormed acceptable apart numeric
  fun_induction run program budget state with
  | case1 state => simp
  | case2 budget state moved => simp
  | case3 budget state moved induction => exact induction numeric
  | case4 budget state next moved induction =>
    have numericNext := safe state numeric
    rw [moved] at numericNext
    exact induction numericNext
  | case5 budget state fault moved =>
    have impossible := safe state numeric
    rw [moved] at impossible
    exact impossible.elim

end Source

namespace Euclid

open Program

theorem wellFormed_program (first second : Word) :
    WellFormed (program first second) := by
  have mov : Mnemonic.named? "mov" = some .mov := rfl
  have dec : Mnemonic.named? "dec" = some .dec := rfl
  have cmp : Mnemonic.named? "cmp" = some .cmp := rfl
  have label : Mnemonic.named? "label" = some .label := rfl
  have jmp : Mnemonic.named? "jmp" = some (.jump .always) := rfl
  have je : Mnemonic.named? "je" = some (.jump .zero) := rfl
  have jl : Mnemonic.named? "jl" = some (.jump .negative) := rfl
  constructor <;>
    simp [program, Invocation.mnemonic?, HasTarget, ax, bx, mov, dec, cmp,
      label, jmp, je, jl]

end Euclid

namespace Dialect

open Program

variable {dialect : Dialect} {program : Program} {machine : Machine}

theorem run_of_wellFormed (isStandard : dialect.IsStandard)
    (short : program.length < 2 ^ 63)
    (assembles : dialect.assemble program = .ok machine)
    (wellFormed : WellFormed program) (budget : Nat) (fault : Fault)
    (stopped : Machine) : machine.run budget ≠ .faulted fault stopped := by
  obtain ⟨acceptable, rfl⟩ := (assemble_eq_ok_iff isStandard).1 assembles
  have corresponds := Source.corresponds_run
    (Source.agrees_assembled isStandard program) isStandard short acceptable
    budget
  have numeric : (Source.State.start dialect.registers).registers.Numeric
      dialect.registers := RegisterBank.numeric_zero dialect.registers
  have noFault := Source.run_of_wellFormed wellFormed acceptable
    (fun name => named?_eq_none_of_register isStandard) numeric budget
  intro failed
  rw [failed] at corresponds
  generalize ended : Source.run program budget (.start dialect.registers) =
    ending at corresponds
  cases corresponds with
  | faulted fault agrees => exact noFault fault _ ended

/-- A well-formed program that is assembled never fails: every instruction that
it ever executes succeeds, so it comes to its end or runs forever.  Programs of
`2 ^ 63` lines and more are left out, which no memory holds: the addresses of
their labels would wrap. -/
theorem wellFormed_never_fails {registers : List Name}
    (declared : declare registers Operation.standard = .ok dialect)
    (short : program.length < 2 ^ 63)
    (assembles : dialect.assemble program = .ok machine)
    (wellFormed : WellFormed program) :
    (∀ budget, ∀ attempt ∈ machine.attempts budget,
        ∃ next, attempt.outcome = .done next) ∧
      ((∃ budget final, machine.run budget = .halted final) ∨
        ∀ budget, ∃ later, machine.run budget = .paused later) := by
  have isStandard := isStandard_of_declare declared
  have noFault := run_of_wellFormed isStandard short assembles wellFormed
  constructor
  · intro budget
    exact Machine.attempts_done (noFault budget)
  · exact Machine.halts_or_goes_on noFault

/-- Not even with an operand that is zero, where it runs forever, does the
program for greatest common divisors fail. -/
theorem euclid_never_fails :
    declare standardRegisters Operation.standard = .ok standard ∧
      Program.WellFormed (Euclid.program 5 0) ∧
      ∃ machine, standard.assemble (Euclid.program 5 0) = .ok machine ∧
        ∀ budget, ∀ attempt ∈ machine.attempts budget,
          ∃ next, attempt.outcome = .done next := by
  have declared : declare standardRegisters Operation.standard = .ok standard :=
    declare_eq_ok_iff.2 ⟨rfl, rfl⟩
  have wellFormed := Euclid.wellFormed_program 5 0
  exact ⟨declared, wellFormed, _, rfl,
    (wellFormed_never_fails declared (by decide) rfl wellFormed).1⟩

end Dialect

end RegisterMachine

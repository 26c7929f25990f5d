import Mathlib.Data.List.Basic
import RegisterMachine.Proofs.Step
import RegisterMachine.Proofs.UserRegisters

/-!
# Rules of the basic operations

The effects of the basic operations as rules, one for each way in which an
operation can succeed, and one for each reason for which it can be refused.  An
effect follows from a rule exactly when the operation has it, and whatever is
reported in place of an effect is one of the reasons.  An operation sees of its
machine only the registers that its arguments name, a jump also the flag and the
label table, and the definition of a label the number of instructions.
-/

namespace RegisterMachine

namespace Mnemonic

/-- The effects that the basic operations have on a machine. -/
inductive Yields (machine : Machine) :
    Mnemonic → List Argument → Effect → Prop
  | mov {name : Name} (source : Argument)
      (bound : (machine.read? name).isSome) :
      Yields machine .mov [.register name, source]
        (.store name source.toCell)
  | inc {name : Name} {amount : Option Argument} {current operand : Word}
      (reads : machine.read? name = some (.number current))
      (operandRead : machine.registers.amount amount = .ok operand) :
      Yields machine .inc (.register name :: amount.toList)
        (.store name (.number (current + operand)))
  | dec {name : Name} {amount : Option Argument} {current operand : Word}
      (reads : machine.read? name = some (.number current))
      (operandRead : machine.registers.amount amount = .ok operand) :
      Yields machine .dec (.register name :: amount.toList)
        (.store name (.number (current - operand)))
  | cmp {name : Name} {amount : Option Argument} {current operand : Word}
      (reads : machine.read? name = some (.number current))
      (operandRead : machine.registers.amount amount = .ok operand) :
      Yields machine .cmp (.register name :: amount.toList)
        (.compare (current - operand))
  | label (name : Name) :
      Yields machine .label [.label name]
        (.define name (machine.nextAddress - 1))
  | stay {condition : Condition} (argument : Argument)
      (notMet : condition.holds machine.comparison = false) :
      Yields machine (.jump condition) [argument] .idle
  | leap {condition : Condition} {argument : Argument} {target : Word}
      (met : condition.holds machine.comparison = true)
      (found : machine.target argument = .ok target) :
      Yields machine (.jump condition) [argument] (.goto target)

/-- The reasons for which a basic operation has no effect on a machine. -/
inductive Refuses (machine : Machine) :
    Mnemonic → List Argument → Fault → Prop
  | arity {mnemonic : Mnemonic} {arguments : List Argument}
      (notAccepted : mnemonic.arity.accepts arguments.length = false) :
      Refuses machine mnemonic arguments
        (.wrongArity mnemonic.text mnemonic.arity arguments.length)
  | unbound {mnemonic : Mnemonic} {arguments : List Argument} {name : Name}
      (isArgument : .register name ∈ arguments)
      (unbound : machine.read? name = none) :
      Refuses machine mnemonic arguments (.unknownName name)
  | destination {mnemonic : Mnemonic} {found : Argument}
      (amount : List Argument) (notRegister : ∀ name, found ≠ .register name) :
      Refuses machine mnemonic (found :: amount)
        (.expectedRegister mnemonic.text found)
  | contents {mnemonic : Mnemonic} {arguments : List Argument} {name : Name}
      {cell : Cell} (isArgument : .register name ∈ arguments)
      (reads : machine.read? name = some cell)
      (notNumber : ∀ value, cell ≠ .number value) :
      Refuses machine mnemonic arguments (.notANumber name cell)
  | amount {mnemonic : Mnemonic} (destination : Argument) (name : Name) :
      Refuses machine mnemonic [destination, .label name]
        (.notNumeric (.label name))
  | label {found : Argument} (notLabel : ∀ name, found ≠ .label name) :
      Refuses machine .label [found] (.expectedLabel "label" found)
  | undefined {condition : Condition} {name : Name}
      (undefined : machine.labelTable.get? name = none) :
      Refuses machine (.jump condition) [.label name] (.undefinedLabel name)
  | register (condition : Condition) (name : Name) :
      Refuses machine (.jump condition) [.register name]
        (.notAnAddress (.register name))

end Mnemonic

namespace Machine

theorem target_label (machine : Machine) (name : Name) :
    machine.target (.label name) =
      match machine.labelTable.get? name with
      | some address => .ok address
      | none => .error (.undefinedLabel name) := by
  rw [target, labelTable]
  cases machine.labels? <;> rfl

end Machine

namespace Mnemonic

variable {machine : Machine} {mnemonic : Mnemonic} {arguments : List Argument}

theorem refuses_of_register {name : Name} {fault : Fault}
    (isArgument : .register name ∈ arguments)
    (failed : machine.registers.register name = .error fault) :
    Refuses machine mnemonic arguments fault := by
  obtain ⟨missing, rfl⟩ := RegisterBank.register_eq_error_iff.1 failed
  refine .unbound isArgument ?_
  rw [Machine.read?, RegisterBank.read?, missing, Option.map_none]

theorem refuses_of_number {name : Name} {register : Register} {fault : Fault}
    (isArgument : .register name ∈ arguments)
    (found : machine.registers.register name = .ok register)
    (failed : register.number = .error fault) :
    Refuses machine mnemonic arguments fault := by
  obtain ⟨rfl, reads⟩ := RegisterBank.register_eq_ok_iff_read?.1 found
  obtain ⟨notNumber, rfl⟩ := Register.number_eq_error_iff.1 failed
  refine .contents isArgument reads ?_
  intro value isNumber
  rw [isNumber] at notNumber
  cases notNumber

theorem refuses_of_amount (destination : Argument) {amount : Option Argument}
    {fault : Fault} (failed : machine.registers.amount amount = .error fault) :
    Refuses machine mnemonic (destination :: amount.toList) fault := by
  match amount with
  | none => cases failed
  | some (.literal value) => cases failed
  | some (.label name) =>
    cases failed
    exact .amount destination name
  | some (.register name) =>
    have isArgument : .register name ∈
        destination :: (some (Argument.register name)).toList := by simp
    rcases bind_eq_error_iff.1 failed with unbound | ⟨register, found, failed⟩
    · exact refuses_of_register isArgument unbound
    · exact refuses_of_number isArgument found failed

theorem refuses_of_destination {destination : Argument} (amount : List Argument)
    {fault : Fault}
    (failed : machine.registers.destination mnemonic destination =
      .error fault) :
    Refuses machine mnemonic (destination :: amount) fault := by
  cases destination with
  | register name => exact refuses_of_register List.mem_cons_self failed
  | literal value =>
    cases failed
    exact .destination amount (by simp)
  | label name =>
    cases failed
    exact .destination amount (by simp)

theorem refuses_of_computed {compute : Word → Word → Word}
    {destination : Argument} {amount : Option Argument} {fault : Fault}
    (failed : machine.registers.computed mnemonic compute destination amount =
      .error fault) :
    Refuses machine mnemonic (destination :: amount.toList) fault := by
  rcases bind_eq_error_iff.1 failed with noAmount | ⟨operand, _, failed⟩
  · exact refuses_of_amount destination noAmount
  rcases bind_eq_error_iff.1 failed with noRegister | ⟨register, found, failed⟩
  · exact refuses_of_destination _ noRegister
  rcases bind_eq_error_iff.1 failed with noNumber | ⟨current, _, done⟩
  · obtain rfl := RegisterBank.destination_eq_ok found
    exact refuses_of_number List.mem_cons_self found noNumber
  · cases done

theorem refuses_of_calculated {compute : Word → Word → Word}
    {destination : Argument} {amount : Option Argument} {fault : Fault}
    (wrap : Name × Word → Effect)
    (failed : (do
      let result ←
        machine.registers.computed mnemonic compute destination amount
      return wrap result) = Except.error fault) :
    Refuses machine mnemonic (destination :: amount.toList) fault := by
  rcases bind_eq_error_iff.1 failed with noResult | ⟨result, _, done⟩
  · exact refuses_of_computed noResult
  · cases done

theorem moveEffect_eq_ok_iff {destination source : Argument} {effect : Effect} :
    moveEffect machine.registers destination source = .ok effect ↔
      ∃ name, destination = .register name ∧ (machine.read? name).isSome ∧
        effect = .store name source.toCell := by
  constructor
  · intro worked
    obtain ⟨register, found, stored⟩ := bind_eq_ok_iff.1 worked
    obtain rfl := RegisterBank.destination_eq_ok found
    have reads := (RegisterBank.register_eq_ok_iff_read?.1 found).2
    refine ⟨register.name, rfl, ?_, (Except.ok.inj stored).symm⟩
    rw [Machine.read?, reads, Option.isSome_some]
  · rintro ⟨name, rfl, bound, rfl⟩
    obtain ⟨cell, reads⟩ := Option.isSome_iff_exists.1 bound
    have found : machine.registers.register name = .ok ⟨name, cell⟩ :=
      RegisterBank.register_eq_ok_iff_read?.2 ⟨rfl, reads⟩
    rw [moveEffect, RegisterBank.destination, found]
    rfl

/-- What becomes of the result of a calculation. -/
theorem calculated_eq_ok_iff {compute : Word → Word → Word}
    {destination : Argument} {amount : Option Argument}
    (wrap : Name × Word → Effect) {effect : Effect} :
    (do
      let result ←
        machine.registers.computed mnemonic compute destination amount
      return wrap result) = Except.ok effect ↔
      ∃ name current operand, destination = .register name ∧
        machine.read? name = some (.number current) ∧
        machine.registers.amount amount = .ok operand ∧
        effect = wrap (name, compute current operand) := by
  constructor
  · intro worked
    obtain ⟨⟨name, result⟩, computed, wrapped⟩ := bind_eq_ok_iff.1 worked
    obtain ⟨current, operand, isRegister, reads, operandRead, rfl⟩ :=
      RegisterBank.computed_eq_ok_iff.1 computed
    exact ⟨name, current, operand, isRegister, reads, operandRead,
      (Except.ok.inj wrapped).symm⟩
  · rintro ⟨name, current, operand, isRegister, reads, operandRead, rfl⟩
    rw [RegisterBank.computed_eq_ok_iff.2
      ⟨current, operand, isRegister, reads, operandRead, rfl⟩]
    rfl

theorem arithmeticEffect_eq_ok_iff {compute : Word → Word → Word}
    {destination : Argument} {amount : Option Argument} {effect : Effect} :
    arithmeticEffect machine.registers mnemonic compute destination amount =
        .ok effect ↔
      ∃ name current operand, destination = .register name ∧
        machine.read? name = some (.number current) ∧
        machine.registers.amount amount = .ok operand ∧
        effect = .store name (.number (compute current operand)) :=
  calculated_eq_ok_iff fun result => .store result.1 (.number result.2)

theorem compareEffect_eq_ok_iff {destination : Argument}
    {amount : Option Argument} {effect : Effect} :
    compareEffect machine.registers destination amount = .ok effect ↔
      ∃ name current operand, destination = .register name ∧
        machine.read? name = some (.number current) ∧
        machine.registers.amount amount = .ok operand ∧
        effect = .compare (current - operand) :=
  calculated_eq_ok_iff fun result => .compare result.2

theorem effect_inc (machine : Machine) (destination : Argument)
    (amount : Option Argument) :
    inc.effect machine (destination :: amount.toList) =
      arithmeticEffect machine.registers inc (· + ·) destination amount := by
  cases amount <;> rfl

theorem effect_dec (machine : Machine) (destination : Argument)
    (amount : Option Argument) :
    dec.effect machine (destination :: amount.toList) =
      arithmeticEffect machine.registers dec (· - ·) destination amount := by
  cases amount <;> rfl

theorem effect_cmp (machine : Machine) (destination : Argument)
    (amount : Option Argument) :
    cmp.effect machine (destination :: amount.toList) =
      compareEffect machine.registers destination amount := by
  cases amount <;> rfl

theorem jumpEffect_eq_ok_iff {condition : Condition} {argument : Argument}
    {effect : Effect} :
    jumpEffect machine condition argument = .ok effect ↔
      condition.holds machine.comparison = false ∧ effect = .idle ∨
        condition.holds machine.comparison = true ∧
          ∃ target, machine.target argument = .ok target ∧
            effect = .goto target := by
  rw [jumpEffect]
  cases condition.holds machine.comparison with
  | false => simp [eq_comm]
  | true => cases machine.target argument <;> simp [Except.map, eq_comm]

/-- The arguments that an operation can make something of. -/
inductive Shape : Mnemonic → List Argument → Prop
  | mov (destination source : Argument) : Shape .mov [destination, source]
  | inc (destination : Argument) (amount : Option Argument) :
      Shape .inc (destination :: amount.toList)
  | dec (destination : Argument) (amount : Option Argument) :
      Shape .dec (destination :: amount.toList)
  | cmp (destination : Argument) (amount : Option Argument) :
      Shape .cmp (destination :: amount.toList)
  | label (argument : Argument) : Shape .label [argument]
  | jump (condition : Condition) (argument : Argument) :
      Shape (.jump condition) [argument]

theorem destination_and_amount?
    (accepts : (Arity.mk 1 2).accepts arguments.length = true) :
    ∃ destination amount, arguments = destination :: Option.toList amount := by
  rw [Arity.accepts_iff] at accepts
  match arguments, accepts with
  | [destination], _ => exact ⟨destination, none, rfl⟩
  | [destination, amount], _ => exact ⟨destination, some amount, rfl⟩
  | [], bounds => simp at bounds
  | _ :: _ :: _ :: _, bounds => simp at bounds

theorem shape_of_accepts
    (accepts : mnemonic.arity.accepts arguments.length = true) :
    Shape mnemonic arguments := by
  cases mnemonic with
  | mov =>
    obtain ⟨destination, source, rfl⟩ :=
      List.length_eq_two.1 ((Arity.exactly_accepts_iff 2 _).1 accepts)
    exact .mov destination source
  | inc =>
    obtain ⟨destination, amount, rfl⟩ := destination_and_amount? accepts
    exact .inc destination amount
  | dec =>
    obtain ⟨destination, amount, rfl⟩ := destination_and_amount? accepts
    exact .dec destination amount
  | cmp =>
    obtain ⟨destination, amount, rfl⟩ := destination_and_amount? accepts
    exact .cmp destination amount
  | label =>
    obtain ⟨argument, rfl⟩ :=
      List.length_eq_one_iff.1 ((Arity.exactly_accepts_iff 1 _).1 accepts)
    exact .label argument
  | jump condition =>
    obtain ⟨argument, rfl⟩ :=
      List.length_eq_one_iff.1 ((Arity.exactly_accepts_iff 1 _).1 accepts)
    exact .jump condition argument

theorem effect_of_not_accepts (machine : Machine)
    (notAccepted : mnemonic.arity.accepts arguments.length = false) :
    mnemonic.effect machine arguments =
      .error (.wrongArity mnemonic.text mnemonic.arity arguments.length) := by
  rcases arguments with _ | ⟨first, _ | ⟨second, _ | ⟨third, rest⟩⟩⟩ <;>
    cases mnemonic <;>
      first | rfl | simp [arity, Arity.accepts, Arity.exactly] at notAccepted

/-- The rules give exactly the effects of the operations. -/
theorem effect_eq_ok_iff {effect : Effect} :
    mnemonic.effect machine arguments = .ok effect ↔
      Yields machine mnemonic arguments effect := by
  constructor
  · intro worked
    -- Behind the check of their number the arguments have one shape for each
    -- operation.
    cases accepted : mnemonic.arity.accepts arguments.length with
    | false =>
      rw [effect_of_not_accepts machine accepted] at worked
      cases worked
    | true =>
      cases shape_of_accepts accepted with
      | mov destination source =>
        obtain ⟨name, rfl, bound, rfl⟩ := moveEffect_eq_ok_iff.1 worked
        exact .mov source bound
      | inc destination amount =>
        rw [effect_inc] at worked
        obtain ⟨name, current, operand, rfl, reads, operandRead, rfl⟩ :=
          arithmeticEffect_eq_ok_iff.1 worked
        exact .inc reads operandRead
      | dec destination amount =>
        rw [effect_dec] at worked
        obtain ⟨name, current, operand, rfl, reads, operandRead, rfl⟩ :=
          arithmeticEffect_eq_ok_iff.1 worked
        exact .dec reads operandRead
      | cmp destination amount =>
        rw [effect_cmp] at worked
        obtain ⟨name, current, operand, rfl, reads, operandRead, rfl⟩ :=
          compareEffect_eq_ok_iff.1 worked
        exact .cmp reads operandRead
      | label argument =>
        cases argument with
        | label name =>
          cases worked
          exact .label name
        | literal value => cases worked
        | register name => cases worked
      | jump condition argument =>
        rcases jumpEffect_eq_ok_iff.1 worked with
          ⟨notMet, rfl⟩ | ⟨met, target, found, rfl⟩
        · exact .stay argument notMet
        · exact .leap met found
  · intro yields
    cases yields with
    | mov source bound => exact moveEffect_eq_ok_iff.2 ⟨_, rfl, bound, rfl⟩
    | inc reads operandRead =>
      rw [effect_inc]
      exact arithmeticEffect_eq_ok_iff.2 ⟨_, _, _, rfl, reads, operandRead, rfl⟩
    | dec reads operandRead =>
      rw [effect_dec]
      exact arithmeticEffect_eq_ok_iff.2 ⟨_, _, _, rfl, reads, operandRead, rfl⟩
    | cmp reads operandRead =>
      rw [effect_cmp]
      exact compareEffect_eq_ok_iff.2 ⟨_, _, _, rfl, reads, operandRead, rfl⟩
    | label name => rfl
    | stay argument notMet => exact jumpEffect_eq_ok_iff.2 (.inl ⟨notMet, rfl⟩)
    | leap met found =>
      exact jumpEffect_eq_ok_iff.2 (.inr ⟨met, _, found, rfl⟩)

/-- What an operation stores goes to a register among its arguments. -/
theorem Yields.register_mem {name : Name} {cell : Cell}
    (yields : Yields machine mnemonic arguments (.store name cell)) :
    .register name ∈ arguments := by
  cases yields <;> exact List.mem_cons_self

theorem Yields.eq_label {name : Name} {address : Word}
    (yields : Yields machine mnemonic arguments (.define name address)) :
    mnemonic = .label := by
  cases yields
  rfl

/-- The definition of a label works on a label only. -/
theorem execute_label_eq_done {changed : Machine}
    (done : label.execute arguments machine = .done changed) :
    ∃ name, arguments = [.label name] ∧
      changed = machine.defineLabel name (machine.nextAddress - 1) := by
  rw [execute] at done
  cases worked : label.effect machine arguments with
  | error fault =>
    rw [worked] at done
    cases done
  | ok effect =>
    rw [worked] at done
    cases effect_eq_ok_iff.1 worked with
    | label name =>
      cases done
      exact ⟨name, rfl, rfl⟩

theorem refuses_of_target {condition : Condition} {argument : Argument}
    {fault : Fault} (failed : machine.target argument = .error fault) :
    Refuses machine (.jump condition) [argument] fault := by
  cases argument with
  | literal address => cases failed
  | register name =>
    cases failed
    exact .register condition name
  | label name =>
    rw [Machine.target_label] at failed
    cases recorded : machine.labelTable.get? name with
    | some address =>
      rw [recorded] at failed
      cases failed
    | none =>
      rw [recorded] at failed
      cases failed
      exact .undefined recorded

/-- An operation without effect is refused for one of the reasons. -/
theorem refuses_of_effect {fault : Fault}
    (failed : mnemonic.effect machine arguments = .error fault) :
    Refuses machine mnemonic arguments fault := by
  cases accepted : mnemonic.arity.accepts arguments.length with
  | false =>
    rw [effect_of_not_accepts machine accepted] at failed
    cases failed
    exact .arity accepted
  | true =>
    cases shape_of_accepts accepted with
    | mov destination source =>
      rcases bind_eq_error_iff.1 failed with noRegister | ⟨register, _, done⟩
      · exact refuses_of_destination [source] noRegister
      · cases done
    | inc destination amount =>
      rw [effect_inc] at failed
      exact refuses_of_calculated _ failed
    | dec destination amount =>
      rw [effect_dec] at failed
      exact refuses_of_calculated _ failed
    | cmp destination amount =>
      rw [effect_cmp] at failed
      exact refuses_of_calculated _ failed
    | label argument =>
      cases argument with
      | label name => cases failed
      | literal value =>
        cases failed
        exact .label (by simp)
      | register name =>
        cases failed
        exact .label (by simp)
    | jump condition argument =>
      have looked : jumpEffect machine condition argument = .error fault :=
        failed
      rw [jumpEffect] at looked
      cases met : condition.holds machine.comparison with
      | false => simp [met] at looked
      | true =>
        cases found : machine.target argument with
        | ok target => simp [met, found, Except.map] at looked
        | error reason =>
          simp only [met, found, if_true, Except.map, Except.error.injEq]
            at looked
          subst looked
          exact refuses_of_target found

theorem target_congr {first second : Machine} {argument : Argument}
    (labels : first.labelTable = second.labelTable) :
    first.target argument = second.target argument := by
  cases argument with
  | label name => rw [Machine.target_label, labels, ← Machine.target_label]
  | literal address => rfl
  | register name => rfl

/-- A move asks of its destination no more than that it is bound. -/
theorem moveEffect_congr {first second : RegisterBank}
    {destination source : Argument}
    (bound : ∀ name, destination = .register name →
      (first.read? name).isSome = (second.read? name).isSome) :
    moveEffect first destination source =
      moveEffect second destination source := by
  cases destination with
  | register name =>
    have sameBound := bound name rfl
    rw [moveEffect, RegisterBank.destination, RegisterBank.register,
      RegisterBank.find?_eq_map_read?, moveEffect, RegisterBank.destination,
      RegisterBank.register, RegisterBank.find?_eq_map_read?]
    cases reads : first.read? name <;>
      cases otherReads : second.read? name <;>
        simp_all [bind, Except.bind, pure, Except.pure]
  | literal value => rfl
  | label name => rfl

/-- An operation has the same effect on machines that agree on what it sees of
them.  A move sees whether its destination is bound, arithmetic and comparisons
see the registers that their arguments name, jumps the flag and the label table,
and the definition of a label the number of instructions. -/
theorem effect_eq_of_seen {first second : Machine}
    (bound : mnemonic = .mov → ∀ name, .register name ∈ arguments →
      (first.read? name).isSome = (second.read? name).isSome)
    (cells : mnemonic ∈ [inc, dec, cmp] → ∀ name, .register name ∈ arguments →
      first.read? name = second.read? name)
    (flag : ∀ condition, mnemonic = .jump condition →
      first.comparison = second.comparison ∧
        first.labelTable = second.labelTable)
    (place : mnemonic = .label → first.queued = second.queued) :
    mnemonic.effect first arguments = mnemonic.effect second arguments := by
  cases accepted : mnemonic.arity.accepts arguments.length with
  | false =>
    rw [effect_of_not_accepts first accepted,
      effect_of_not_accepts second accepted]
  | true =>
    cases shape_of_accepts accepted with
    | mov destination source =>
      apply moveEffect_congr
      rintro name rfl
      exact bound rfl name List.mem_cons_self
    | inc destination amount =>
      rw [effect_inc, effect_inc, arithmeticEffect,
        RegisterBank.computed_congr inc _ (cells (by simp)), arithmeticEffect]
    | dec destination amount =>
      rw [effect_dec, effect_dec, arithmeticEffect,
        RegisterBank.computed_congr dec _ (cells (by simp)), arithmeticEffect]
    | cmp destination amount =>
      rw [effect_cmp, effect_cmp, compareEffect,
        RegisterBank.computed_congr cmp _ (cells (by simp)), compareEffect]
    | label argument =>
      have same : first.nextAddress = second.nextAddress :=
        congrArg Int64.ofNat (place rfl)
      cases argument with
      | label name =>
        exact congrArg
          (fun address => Except.ok (Effect.define name (address - 1))) same
      | literal value => rfl
      | register name => rfl
    | jump condition argument =>
      obtain ⟨sameFlag, sameLabels⟩ := flag condition rfl
      change jumpEffect first condition argument =
        jumpEffect second condition argument
      rw [jumpEffect, sameFlag, target_congr sameLabels, jumpEffect]

/-- An operation has the same effect on machines that agree on the registers
that its arguments name.  Jumps also look at the flag and at the label table,
and the definition of a label at the number of instructions. -/
theorem effect_congr {first second : Machine}
    (cells : ∀ name, .register name ∈ arguments →
      first.read? name = second.read? name)
    (flag : ∀ condition, mnemonic = .jump condition →
      first.comparison = second.comparison ∧
        first.labelTable = second.labelTable)
    (place : mnemonic = .label → first.queued = second.queued) :
    mnemonic.effect first arguments = mnemonic.effect second arguments :=
  effect_eq_of_seen
    (fun _ name isArgument => congrArg Option.isSome (cells name isArgument))
    (fun _ => cells) flag place

end Mnemonic

end RegisterMachine

import Mathlib.Algebra.BigOperators.Group.List.Basic
import Mathlib.Data.Int.ModEq
import Mathlib.Data.List.DropRight
import Mathlib.Logic.Relation
import RegisterMachine.Proofs.CounterRange

/-!
# Straight-line arithmetic

A program that only sets registers to literals, and adds literals to them or
subtracts literals from them, executes its lines one after another and does not
fail.  Sums and differences of words are taken modulo `2 ^ 64`, so what a
register holds at the end can be computed with integers: it is the last value
that the register was set to, with all amounts behind it added or subtracted,
and only the result has to be wrapped into a word.  The lines for the other
registers do not matter, and neither does the order of the amounts between two
settings.
-/

namespace RegisterMachine

/-- What a line with literal operands makes of the number in its register. -/
inductive Update where
  | set (value : Word)
  | add (amount : Word)
  | subtract (amount : Word)
deriving DecidableEq

namespace Update

def apply (update : Update) (current : Word) : Word :=
  match update with
  | set value => value
  | add amount => current + amount
  | subtract amount => current - amount

/-- The value that the register is set to. -/
def value? : Update → Option Int
  | set value => some value.toInt
  | add _ | subtract _ => none

/-- What is added to the value of the register, unless it is set. -/
def difference : Update → Int
  | set _ => 0
  | add amount => amount.toInt
  | subtract amount => -amount.toInt

/-- The last value that a register is set to, or else zero, and the sum of the
differences that follow. -/
def total (updates : List Update) : Int :=
  (updates.filterMap value?).getLast?.getD 0 +
    ((updates.rtakeWhile fun update => update.value?.isNone).map
      difference).sum

/-- The total after one more update. -/
def carry (total : Int) (update : Update) : Int :=
  update.value?.getD (total + update.difference)

/-- The differences between two settings, and those in front of the first
setting or behind the last one, are brought into another order. -/
inductive Reordering : List Update → List Update → Prop
  | within (before after : List Update) {differences other : List Update}
      (noSetting : ∀ update ∈ differences, update.value? = none)
      (permuted : differences.Perm other) :
      Reordering (before ++ differences ++ after) (before ++ other ++ after)

/-- The same updates, up to the order of differences. -/
def Reordered : List Update → List Update → Prop :=
  Relation.EqvGen Reordering

theorem total_concat (updates : List Update) (update : Update) :
    total (updates ++ [update]) = carry (total updates) update := by
  cases update with
  | set value => simp [total, carry, value?]
  | _ => simp [total, carry, value?, difference, Int.add_assoc]

theorem total_append (first second : List Update) :
    total (first ++ second) = second.foldl carry (total first) := by
  induction second using List.reverseRecOn with
  | nil => simp
  | append_singleton second update induction =>
    rw [← List.append_assoc, total_concat, induction, List.foldl_append,
      List.foldl_cons, List.foldl_nil]

/-- The register need not be wrapped before the end. -/
theorem ofInt_carry (total : Int) (update : Update) :
    Int64.ofInt (carry total update) = update.apply (Int64.ofInt total) := by
  cases update with
  | set value => exact Int64.ofInt_toInt value
  | add amount =>
    change Int64.ofInt (total + amount.toInt) = _
    rw [Int64.ofInt_add, Int64.ofInt_toInt, apply]
  | subtract amount =>
    change Int64.ofInt (total - amount.toInt) = _
    rw [Int64.ofInt_sub, Int64.ofInt_toInt, apply]

theorem carry_comm {first second : Update} (firstAdds : first.value? = none)
    (secondAdds : second.value? = none) (total : Int) :
    carry (carry total first) second = carry (carry total second) first := by
  simp only [carry, firstAdds, secondAdds, Option.getD_none]
  omega

theorem Reordering.total_eq {first second : List Update}
    (reordering : Reordering first second) : total first = total second := by
  obtain ⟨before, after, noSetting, permuted⟩ := reordering
  have sameDifferences := permuted.foldl_eq'
    (fun update isFirst other isSecond => carry_comm (noSetting update isFirst)
      (noSetting other isSecond)) (total before)
  simp only [total_append, sameDifferences]

theorem Reordered.total_eq {first second : List Update}
    (reordered : Reordered first second) : total first = total second := by
  induction reordered with
  | rel _ _ reordering => exact reordering.total_eq
  | refl _ => rfl
  | symm _ _ _ same => exact same.symm
  | trans _ _ _ _ _ same sameAgain => exact same.trans sameAgain

end Update

namespace Invocation

/-- The amount behind a register, if it is missing or a literal. -/
def literalAmount? : List Argument → Option Word
  | [] => some 1
  | [.literal amount] => some amount
  | _ => none

/-- The register that a line with literal operands updates, with the update. -/
def update? (line : Invocation) : Option (Name × Update) :=
  match line.mnemonic?, line.arguments with
  | some .mov, [.register name, .literal value] => some (name, .set value)
  | some .inc, .register name :: amount =>
    (literalAmount? amount).map fun value => (name, .add value)
  | some .dec, .register name :: amount =>
    (literalAmount? amount).map fun value => (name, .subtract value)
  | _, _ => none

variable {line : Invocation} {register : Name} {update : Update}

theorem arguments_of_literalAmount? {rest : List Argument} {value : Word}
    (isAmount : literalAmount? rest = some value) (register : Name) :
    ∃ amount : Option Argument, rest = amount.toList ∧
      (Arity.mk 1 2).accepts (Argument.register register :: rest).length ∧
      (∀ name, .register name ∈ Argument.register register :: rest →
        name = register) ∧
      ∀ bank : RegisterBank, bank.amount amount = .ok value := by
  unfold literalAmount? at isAmount
  split at isAmount
  next =>
    cases isAmount
    exact ⟨none, rfl, rfl, by simp, fun _ => rfl⟩
  next amount =>
    cases isAmount
    exact ⟨some (.literal value), rfl, rfl, by simp, fun _ => rfl⟩
  next => cases isAmount

/-- What a line with literal operands is, and what it does to a register that
holds a number. -/
theorem operation_of_update?
    (updates : line.update? = some (register, update)) :
    ∃ mnemonic, line.mnemonic? = some mnemonic ∧ mnemonic ≠ .label ∧
      mnemonic.arity.accepts line.arguments.length ∧
      (∀ name, .register name ∈ line.arguments → name = register) ∧
      ∀ (machine : Machine) (current : Word),
        machine.read? register = some (.number current) →
        mnemonic.effect machine line.arguments =
          .ok (.store register (.number (update.apply current))) := by
  unfold update? at updates
  split at updates
  next name value named arguments =>
    cases updates
    rw [arguments]
    refine ⟨.mov, named, by simp, rfl, by simp, fun machine current reads => ?_⟩
    exact Mnemonic.effect_eq_ok_iff.2
      (.mov (.literal value) (by rw [reads, Option.isSome_some]))
  next name rest named arguments =>
    obtain ⟨value, isAmount, same⟩ := Option.map_eq_some_iff.1 updates
    cases same
    obtain ⟨amount, rfl, accepts, covered, operandRead⟩ :=
      arguments_of_literalAmount? isAmount register
    rw [arguments]
    exact ⟨.inc, named, by simp, accepts, covered, fun machine current reads =>
      Mnemonic.effect_eq_ok_iff.2 (.inc reads (operandRead _))⟩
  next name rest named arguments =>
    obtain ⟨value, isAmount, same⟩ := Option.map_eq_some_iff.1 updates
    cases same
    obtain ⟨amount, rfl, accepts, covered, operandRead⟩ :=
      arguments_of_literalAmount? isAmount register
    rw [arguments]
    exact ⟨.dec, named, by simp, accepts, covered, fun machine current reads =>
      Mnemonic.effect_eq_ok_iff.2 (.dec reads (operandRead _))⟩
  next => cases updates

theorem acceptable_of_update? {registers : List Name}
    (updates : line.update? = some (register, update))
    (isRegister : register ∈ registers) : line.Acceptable registers := by
  obtain ⟨mnemonic, named, notLabel, accepts, covered, _⟩ :=
    operation_of_update? updates
  refine .inr ⟨mnemonic, Mnemonic.mem_names_of_named? named, accepts, ?_, ?_⟩
  · intro name isArgument
    rw [covered name isArgument]
    exact isRegister
  · intro isLabel
    exact absurd isLabel notLabel

end Invocation

namespace Program

/-- The updates of one register, in their order. -/
def updatesOf (register : Name) (program : Program) : List Update :=
  program.filterMap fun line =>
    (line.update?.filter fun updated => updated.1 = register).map Prod.snd

/-- Every line updates a register of the user, with literal operands. -/
def IsArithmetic (registers : List Name) (program : Program) : Prop :=
  ∀ line ∈ program, ∃ updated ∈ line.update?, updated.1 ∈ registers

instance (registers : List Name) (program : Program) :
    Decidable (IsArithmetic registers program) :=
  inferInstanceAs (Decidable
    (∀ line ∈ program, ∃ updated ∈ line.update?, updated.1 ∈ registers))

variable {registers : List Name} {program : Program} {line : Invocation}
  {position : Nat} {machine : Machine}

theorem updatesOf_take_succ {register : Name} {update : Update}
    (atPosition : program[position]? = some line)
    (updates : line.update? = some (register, update)) (wanted : Name) :
    updatesOf wanted (program.take (position + 1)) =
      if register = wanted then
        updatesOf wanted (program.take position) ++ [update]
      else updatesOf wanted (program.take position) := by
  rw [List.take_add_one, atPosition, Option.toList_some, updatesOf,
    List.filterMap_append, updatesOf]
  by_cases same : register = wanted <;> simp [updates, same, Option.filter]

theorem IsArithmetic.acceptable (arithmetic : IsArithmetic registers program) :
    ∀ line ∈ program, line.Acceptable registers := by
  intro line inProgram
  obtain ⟨⟨register, update⟩, updates, isRegister⟩ := arithmetic line inProgram
  exact Invocation.acceptable_of_update? updates isRegister

/-- Every line queues an instruction, so lines and instructions have the same
numbers. -/
theorem IsArithmetic.addressAt (arithmetic : IsArithmetic registers program)
    (inside : position ≤ program.length) :
    addressAt program position = position := by
  induction position with
  | zero => rfl
  | succ position induction =>
    have atPosition := List.getElem?_eq_getElem inside
    obtain ⟨⟨register, update⟩, updates, _⟩ :=
      arithmetic _ (List.getElem_mem inside)
    obtain ⟨mnemonic, named, notLabel, _⟩ :=
      Invocation.operation_of_update? updates
    rw [addressAt_succ_of_queued atPosition
      (Invocation.instruction?_eq_some_iff.2 ⟨mnemonic, named, notLabel, rfl⟩),
      induction (Nat.le_of_succ_le inside)]

theorem IsArithmetic.length_instructions
    (arithmetic : IsArithmetic registers program) :
    (instructions program).length = program.length := by
  rw [← addressAt_of_length_le program (Nat.le_refl _),
    arithmetic.addressAt (Nat.le_refl _)]

/-- A line is one step, which updates its register. -/
theorem Running.step_of_update? (running : Running registers program machine)
    (arithmetic : IsArithmetic registers program)
    (counted : machine.counter.address.toInt = position)
    (atPosition : program[position]? = some line) {register : Name}
    {update : Update} (updates : line.update? = some (register, update))
    {current : Word} (reads : machine.read? register = some (.number current)) :
    machine.step = some (.done
      (machine.write register (.number (update.apply current))).advance) := by
  obtain ⟨mnemonic, named, notLabel, _, _, effects⟩ :=
    Invocation.operation_of_update? updates
  obtain ⟨inside, _⟩ := List.getElem?_eq_some_iff.1 atPosition
  have found := instructions_addressAt atPosition
    (Invocation.instruction?_eq_some_iff.2 ⟨mnemonic, named, notLabel, rfl⟩)
  rw [arithmetic.addressAt (Nat.le_of_lt inside)] at found
  have fetched : machine.fetch? =
      some ⟨.ofMnemonic mnemonic, line.arguments⟩ := by
    rw [Machine.fetch?_eq_some_iff, running.instructions]
    exact ⟨position, counted, by rwa [List.getElem?_toArray]⟩
  exact Machine.step_of_effect fetched (effects machine current reads) rfl

/-- The machine is in front of the line at a position, and every register holds
the total of the updates before it. -/
structure Tallied (registers : List Name) (program : Program) (position : Nat)
    (machine : Machine) : Prop where
  counter : machine.counter.address.toInt = position
  registers : ∀ register ∈ registers, machine.read? register =
    some (.number (.ofInt (Update.total
      (updatesOf register (program.take position)))))

theorem tallied_assembled :
    Tallied registers program 0 (assembled registers program) where
  counter := rfl
  registers _ isRegister := RegisterBank.read?_initialBank_register isRegister

theorem Tallied.step (tallied : Tallied registers program position machine)
    (running : Running registers program machine)
    (arithmetic : IsArithmetic registers program)
    (short : program.length < 2 ^ 63) (inside : position < program.length) :
    ∃ attempt next, machine.attempt? = some attempt ∧
      attempt.outcome = .done next ∧
      Tallied registers program (position + 1) next := by
  have atPosition := List.getElem?_eq_getElem inside
  obtain ⟨⟨register, update⟩, updates, isRegister⟩ :=
    arithmetic _ (List.getElem_mem inside)
  have stepped := running.step_of_update? arithmetic tallied.counter atPosition
    updates (tallied.registers register isRegister)
  obtain ⟨attempt, attempted, succeeds⟩ := Option.map_eq_some_iff.1 stepped
  refine ⟨attempt, _, attempted, succeeds, ?_, ?_⟩
  · have advanced : machine.counter.advance.address.toInt =
        machine.counter.address.toInt + 1 :=
      Counter.toInt_advance (by rw [tallied.counter]; omega)
    rwa [tallied.counter] at advanced
  · intro wanted isWanted
    have reads := tallied.registers wanted isWanted
    change (machine.write register _).read? wanted = _
    rw [updatesOf_take_succ atPosition updates, Machine.read?_write]
    by_cases same : wanted = register
    · subst same
      rw [if_pos rfl, if_pos rfl, reads, Option.map_some, Update.total_concat,
        Update.ofInt_carry]
    · rw [if_neg same, if_neg (Ne.symm same), reads]

/-- After as many steps as there are lines before a position, the machine is
there. -/
theorem IsArithmetic.run (arithmetic : IsArithmetic registers program)
    (accepted : Accepted registers program) (short : program.length < 2 ^ 63)
    (inside : position ≤ program.length) :
    ∃ current, (assembled registers program).run position = .paused current ∧
      Tallied registers program position current := by
  induction position with
  | zero => exact ⟨_, rfl, tallied_assembled⟩
  | succ position induction =>
    obtain ⟨before, reached, tallied⟩ := induction (Nat.le_of_succ_le inside)
    have running := (running_assembled accepted).of_paused accepted reached
    obtain ⟨attempt, next, attempted, succeeds, talliedNext⟩ :=
      tallied.step running arithmetic short inside
    exact ⟨next, Machine.run_succ_eq_paused_iff.2
      ⟨before, attempt, reached, attempted, succeeds⟩, talliedNext⟩

/-- The run ends behind the last line. -/
theorem IsArithmetic.halts (arithmetic : IsArithmetic registers program)
    (accepted : Accepted registers program)
    (short : program.length < 2 ^ 63) :
    ∃ final, Tallied registers program program.length final ∧
      ∀ budget, program.length < budget →
        (assembled registers program).run budget = .halted final ∧
          ((assembled registers program).attempts budget).length =
            program.length := by
  obtain ⟨final, reached, tallied⟩ :=
    arithmetic.run accepted short (Nat.le_refl _)
  have outside : ((assembled registers program).queued : Int) ≤
      final.counter.address.toInt := by
    rw [queued_assembled, arithmetic.length_instructions, tallied.counter]
  have ends := ((running_assembled accepted).halts_outside accepted reached
    (.inr outside)).1
  exact ⟨final, tallied, fun budget enough =>
    Machine.halts_after reached ends enough⟩

end Program

namespace Dialect

open Program

variable {dialect : Dialect} {registers : List Name} {program : Program}

theorem assembleBy_arithmetic (isStandard : dialect.IsStandard)
    (arithmetic : IsArithmetic dialect.registers program)
    (submission : Submission) :
    dialect.assembleBy submission program =
      .ok (assembled dialect.registers program) :=
  (assembleBy_eq_ok_iff_acceptable isStandard).2 ⟨arithmetic.acceptable, rfl⟩

theorem results_of_tallied {final : Machine}
    (tallied : Tallied dialect.registers program program.length final) :
    dialect.results final = dialect.registers.map fun register =>
      .number (.ofInt (Update.total (updatesOf register program))) := by
  refine List.map_congr_left fun register isRegister => ?_
  rw [tallied.registers register isRegister, List.take_length, Option.getD_some]

theorem run_arithmetic (isStandard : dialect.IsStandard)
    (arithmetic : IsArithmetic dialect.registers program)
    (short : program.length < 2 ^ 63) (submission : Submission) :
    ∃ final, Tallied dialect.registers program program.length final ∧
      ∀ budget, program.length < budget →
        (assembled dialect.registers program).run budget = .halted final ∧
          ((assembled dialect.registers program).attempts budget).length =
            program.length ∧
          dialect.run submission budget program =
            .results (dialect.results final) := by
  have assembles := assembleBy_arithmetic isStandard arithmetic submission
  obtain ⟨accepted, _⟩ := accepted_of_assembleBy isStandard assembles
  obtain ⟨final, tallied, ends⟩ := arithmetic.halts accepted short
  refine ⟨final, tallied, fun budget enough => ?_⟩
  obtain ⟨halts, count⟩ := ends budget enough
  refine ⟨halts, count, ?_⟩
  simp only [run, assembles, halts, report]

/-- A program of less than `2 ^ 63` lines, each of which sets a register of the
user to a literal, adds a literal to it or subtracts one from it, succeeds after
as many steps as it has lines.  Modulo `2 ^ 64` each register then holds its last
setting, or zero, with the amounts behind it added or subtracted.  So the lines
for different registers can be interleaved in any way, and amounts between two
settings of their register can change places. -/
theorem straight_arithmetic_is_exact
    (declared : declare registers Operation.standard = .ok dialect)
    (arithmetic : IsArithmetic registers program)
    (short : program.length < 2 ^ 63) (submission : Submission) :
    (∃ machine final, dialect.assembleBy submission program = .ok machine ∧
        (∀ budget, program.length < budget →
          machine.run budget = .halted final ∧
            (machine.attempts budget).length = program.length ∧
            dialect.run submission budget program =
              .results (dialect.results final)) ∧
        ∀ register ∈ registers, ∃ value,
          final.read? register = some (.number value) ∧
            value.toInt ≡ Update.total (updatesOf register program)
              [ZMOD 2 ^ 64]) ∧
      ∀ other, IsArithmetic registers other → other.length < 2 ^ 63 →
        (∀ register ∈ registers, Update.Reordered (updatesOf register program)
          (updatesOf register other)) →
        ∀ budget otherBudget, program.length < budget →
          other.length < otherBudget →
            dialect.run submission budget program =
              dialect.run submission otherBudget other := by
  have isStandard := isStandard_of_declare declared
  obtain rfl := registers_of_declare declared
  obtain ⟨final, tallied, ends⟩ :=
    run_arithmetic isStandard arithmetic short submission
  constructor
  · refine ⟨_, final, assembleBy_arithmetic isStandard arithmetic submission,
      ends, fun register isRegister => ?_⟩
    have holds := tallied.registers register isRegister
    rw [List.take_length] at holds
    refine ⟨_, holds, ?_⟩
    rw [Int64.toInt_ofInt]
    exact Int.bmod_emod
  · intro other otherArithmetic otherShort reordered budget otherBudget enough
      otherEnough
    obtain ⟨otherFinal, otherTallied, otherEnds⟩ :=
      run_arithmetic isStandard otherArithmetic otherShort submission
    rw [(ends budget enough).2.2, (otherEnds otherBudget otherEnough).2.2,
      results_of_tallied tallied, results_of_tallied otherTallied]
    congr 1
    refine List.map_congr_left fun register isRegister => ?_
    rw [(reordered register isRegister).total_eq]

/-- A program that leaves the words at both ends. -/
def wrapsAround : Program :=
  [⟨"mov", [.register "ax", .literal Int64.maxValue]⟩,
    ⟨"increment", [.register "ax"]⟩,
    ⟨"dec", [.register "bx", .literal Int64.minValue]⟩,
    ⟨"dec", [.register "ax", .literal Int64.minValue]⟩]

/-- The same updates in another order. -/
def wrapsAroundReordered : Program :=
  [⟨"dec", [.register "bx", .literal Int64.minValue]⟩,
    ⟨"move", [.register "ax", .literal Int64.maxValue]⟩,
    ⟨"decrement", [.register "ax", .literal Int64.minValue]⟩,
    ⟨"inc", [.register "ax", .literal 1]⟩]

theorem wrapsAround_is_exact :
    declare standardRegisters Operation.standard = .ok standard ∧
      IsArithmetic standardRegisters wrapsAround ∧
      IsArithmetic standardRegisters wrapsAroundReordered ∧
      wrapsAround.length < 2 ^ 63 ∧ wrapsAroundReordered.length < 2 ^ 63 ∧
      (∀ register ∈ standardRegisters,
        Update.Reordered (updatesOf register wrapsAround)
          (updatesOf register wrapsAroundReordered)) ∧
      Update.total (updatesOf "bx" wrapsAround) = 2 ^ 63 ∧
      standard.run .direct 5 wrapsAround =
        .results [.number 0, .number Int64.minValue, .number 0, .number 0] ∧
      standard.run .direct 5 wrapsAroundReordered =
        .results [.number 0, .number Int64.minValue, .number 0, .number 0] := by
  have declared : declare standardRegisters Operation.standard = .ok standard :=
    declare_eq_ok_iff.2 ⟨rfl, rfl⟩
  have arithmetic : IsArithmetic standardRegisters wrapsAround := by decide
  have otherArithmetic :
      IsArithmetic standardRegisters wrapsAroundReordered := by decide
  have reordered : ∀ register ∈ standardRegisters,
      Update.Reordered (updatesOf register wrapsAround)
        (updatesOf register wrapsAroundReordered) := by
    intro register isRegister
    have exchanged : Update.Reordering (updatesOf "ax" wrapsAround)
        (updatesOf "ax" wrapsAroundReordered) :=
      .within [.set Int64.maxValue] [] (by decide) (.swap _ _ [])
    simp only [standardRegisters, List.mem_cons, List.not_mem_nil, or_false]
      at isRegister
    rcases isRegister with rfl | rfl | rfl | rfl
    · exact .rel _ _ exchanged
    · exact .refl _
    · exact .refl _
    · exact .refl _
  have same := (straight_arithmetic_is_exact declared arithmetic (by decide)
    .direct).2 wrapsAroundReordered otherArithmetic (by decide) reordered 5 5
    (by decide) (by decide)
  exact ⟨declared, arithmetic, otherArithmetic, by decide, by decide, reordered,
    by decide, rfl, same.symm.trans rfl⟩

end Dialect

end RegisterMachine

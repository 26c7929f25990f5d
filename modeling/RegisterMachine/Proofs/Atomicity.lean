import RegisterMachine.Commands
import RegisterMachine.Proofs.OperationRules
import RegisterMachine.Proofs.StoredMachine

/-!
# Failing operations change nothing

Each basic operation looks up and checks everything it needs before it changes
anything.  Statement by statement it therefore does what it does when its effect
is worked out first and carried out afterwards, and when it fails, it leaves the
stored machine as it was, down to the table of slots.  In a coherent storage no
statement breaks down, so a fault is the only way to fail.
-/

namespace RegisterMachine

/-- A calculation reads its amount first, then its destination and the number in
it. -/
theorem RegisterBank.computed_bind {β : Type} (bank : RegisterBank)
    (mnemonic : Mnemonic) (compute : Word → Word → Word) (target : Argument)
    (operand : Option Argument) (next : Name × Word → Except Fault β) :
    (bank.computed mnemonic compute target operand).bind next =
      (bank.amount operand).bind fun operand =>
        (bank.destination mnemonic target).bind fun register =>
          register.number.bind fun current =>
            next (register.name, compute current operand) := by
  rw [computed]
  cases bank.amount operand with
  | error fault => rfl
  | ok operand =>
    cases bank.destination mnemonic target with
    | error fault => rfl
    | ok register =>
      change (register.number.bind fun current =>
          Except.ok (register.name, compute current operand)).bind next =
        register.number.bind fun current =>
          next (register.name, compute current operand)
      cases register.number <;> rfl

namespace Storage

variable {table : Type} {storage : Storage table} {slot : Nat}
  {register : Register}

theorem registers_rewrite (storage : Storage table) (slot : Nat)
    (change : Cell → Cell) (place : Nat) :
    (storage.rewrite slot change).registers[place]? =
      if slot = place then
        storage.registers[place]?.map fun register =>
          ⟨register.name, change register.cell⟩
      else storage.registers[place]? :=
  Array.getElem?_modify

/-- Only the contents of the register in the slot matter to a change of it. -/
theorem rewrite_congr (inSlot : storage.registers[slot]? = some register)
    {first second : Cell → Cell}
    (same : first register.cell = second register.cell) :
    storage.rewrite slot first = storage.rewrite slot second := by
  have sameRegisters : (storage.rewrite slot first).registers =
      (storage.rewrite slot second).registers := by
    apply Array.ext_getElem?
    intro place
    rw [registers_rewrite, registers_rewrite]
    by_cases here : slot = place
    · subst here
      simp [inSlot, same]
    · simp [here]
  rw [rewrite, rewrite, Storage.mk.injEq]
  exact ⟨rfl, rfl, sameRegisters, rfl, rfl⟩

theorem rewrite_rewrite (storage : Storage table) (slot : Nat)
    (first second : Cell → Cell) :
    (storage.rewrite slot first).rewrite slot second =
      storage.rewrite slot fun cell => second (first cell) := by
  have sameRegisters :
      ((storage.rewrite slot first).rewrite slot second).registers =
        (storage.rewrite slot fun cell => second (first cell)).registers := by
    apply Array.ext_getElem?
    intro place
    rw [registers_rewrite, registers_rewrite, registers_rewrite]
    by_cases here : slot = place
    · subst here
      simp [Function.comp_def]
    · simp [here]
  rw [rewrite, rewrite, rewrite, Storage.mk.injEq]
  exact ⟨rfl, rfl, sameRegisters, rfl, rfl⟩

theorem write_of_slot [SlotTable table] {name : Name}
    (isSlot : storage.slot? name = some slot) (cell : Cell) :
    storage.write name cell = storage.rewrite slot fun _ => cell := by
  simp [write, isSlot]

end Storage

namespace Procedure

open Storage

variable {table : Type} {α : Type} {storage : Storage table} {slot : Nat}
  {name : Name} {register : Register} {mnemonic : Mnemonic}

/-- The end of a procedure that changes nothing and works out a result. -/
def answer (storage : Storage table) :
    Except Fault α → EStateM.Result Stop (Storage table) α
  | .ok value => .ok value storage
  | .error fault => .error (.refused fault) storage

/-- The end of a procedure that changes the stored machine as a whole, or not at
all. -/
def settled (storage : Storage table) :
    Except Fault (Storage table) → EStateM.Result Stop (Storage table) Unit
  | .ok changed => .ok () changed
  | .error fault => .error (.refused fault) storage

theorem run_bind_of_ok {β : Type} {procedure : Procedure table α} {value : α}
    {changed : Storage table}
    (run : procedure.run storage = .ok value changed)
    (next : α → Procedure table β) :
    (procedure >>= next).run storage = (next value).run changed := by
  rw [EStateM.run_bind, run]

/-- A procedure that changes nothing may be followed by anything that does what
is said to follow its result. -/
theorem run_bind_settled {procedure : Procedure table α}
    {result : Except Fault α} {next : α → Procedure table Unit}
    {after : α → Except Fault (Storage table)}
    (run : procedure.run storage = answer storage result)
    (goesOn : ∀ value, (next value).run storage = settled storage (after value)) :
    (procedure >>= next).run storage = settled storage (result.bind after) := by
  rw [EStateM.run_bind, run]
  cases result with
  | ok value => exact goesOn value
  | error fault => rfl

theorem run_checkArity {given : Nat}
    (accepts : mnemonic.arity.accepts given = true) (storage : Storage table) :
    (checkArity mnemonic given).run storage = .ok () storage := by
  rw [checkArity, if_pos accepts]
  rfl

theorem run_checkArity_of_not {given : Nat}
    (notAccepted : mnemonic.arity.accepts given = false)
    (storage : Storage table) :
    (checkArity mnemonic given).run storage =
      .error (.refused (.wrongArity mnemonic.text mnemonic.arity given))
        storage := by
  rw [checkArity, notAccepted]
  rfl

theorem run_ofExcept (result : Except Fault α) (storage : Storage table) :
    (ofExcept result).run storage = answer storage result := by
  cases result <;> rfl

theorem run_argument {arguments : List Argument} {index : Nat}
    {found : Argument} (isArgument : arguments[index]? = some found)
    (storage : Storage table) :
    (argument arguments index).run storage = .ok found storage := by
  rw [argument, isArgument]
  rfl

theorem run_registerAt (inSlot : storage.registers[slot]? = some register) :
    (registerAt slot).run storage = .ok register storage := by
  rw [registerAt, run_bind_of_ok (EStateM.run_get storage), inSlot]
  rfl

theorem run_jumpTo (storage : Storage table) (target : Word) :
    (jumpTo target).run storage = settled storage (storage.jump target) := by
  rw [jumpTo, EStateM.run_bind, run_ofExcept, Storage.jump]
  cases Counter.jump target <;> rfl

theorem run_overwrite (inSlot : storage.registers[slot]? = some register)
    (cell : Cell) :
    (overwrite slot cell).run storage =
      .ok () (storage.rewrite slot fun _ => cell) := by
  rw [overwrite, run_bind_of_ok (run_registerAt inSlot)]
  rfl

variable [SlotTable table]

/-- A bound register is in the slot to which the table leads. -/
theorem exists_slot_of_find? (coherent : storage.Coherent)
    (found : storage.machine.registers.find? name = some register) :
    ∃ slot, storage.slot? name = some slot ∧
      storage.registers[slot]? = some register := by
  rw [RegisterBank.find?_eq_bind_slot?, ← coherent.slot?_eq] at found
  obtain ⟨slot, isSlot, inSlot⟩ := Option.bind_eq_some_iff.1 found
  refine ⟨slot, isSlot, ?_⟩
  rw [← Array.getElem?_toList]
  exact inSlot

theorem run_place?_of_bound (coherent : storage.Coherent)
    (found : storage.machine.registers.find? name = some register) :
    ∃ slot, storage.slot? name = some slot ∧
      storage.registers[slot]? = some register ∧
      (place? name).run storage = .ok (some ⟨slot, register⟩) storage := by
  obtain ⟨slot, isSlot, inSlot⟩ := exists_slot_of_find? coherent found
  refine ⟨slot, isSlot, inSlot, ?_⟩
  rw [place?, run_bind_of_ok (EStateM.run_get storage), isSlot]
  exact run_bind_of_ok (run_registerAt inSlot) _

theorem slot?_of_find?_eq_none (coherent : storage.Coherent)
    (unbound : storage.machine.registers.find? name = none) :
    storage.slot? name = none := by
  rw [coherent.slot?_eq, RegisterBank.slot?_eq_none_iff,
    ← RegisterBank.find?_eq_none_iff]
  exact unbound

theorem run_place?_of_unbound (coherent : storage.Coherent)
    (unbound : storage.machine.registers.find? name = none) :
    (place? name).run storage = .ok none storage := by
  have noSlot := slot?_of_find?_eq_none coherent unbound
  rw [place?, run_bind_of_ok (EStateM.run_get storage), noSlot]
  rfl

theorem run_read? (coherent : storage.Coherent) (name : Name) :
    (read? name).run storage = .ok (storage.machine.read? name) storage := by
  rw [Machine.read?, RegisterBank.read?]
  cases found : storage.machine.registers.find? name with
  | none =>
    rw [read?, run_bind_of_ok (run_place?_of_unbound coherent found)]
    rfl
  | some register =>
    obtain ⟨slot, _, _, run⟩ := run_place?_of_bound coherent found
    rw [read?, run_bind_of_ok run]
    rfl

theorem run_amount (coherent : storage.Coherent) (operand : Option Argument) :
    (amount operand).run storage =
      answer storage (storage.machine.registers.amount operand) := by
  match operand with
  | none => rfl
  | some (.literal value) => rfl
  | some (.label name) => rfl
  | some (.register name) =>
    rw [amount, RegisterBank.amount, RegisterBank.register]
    cases found : storage.machine.registers.find? name with
    | none =>
      rw [run_bind_of_ok (run_place?_of_unbound coherent found)]
      rfl
    | some register =>
      obtain ⟨slot, _, _, run⟩ := run_place?_of_bound coherent found
      rw [run_bind_of_ok run]
      exact run_ofExcept register.number storage

theorem run_destination_of_ok (coherent : storage.Coherent)
    {argument : Argument}
    (found : storage.machine.registers.destination mnemonic argument =
      .ok register) :
    ∃ slot, storage.slot? register.name = some slot ∧
      storage.registers[slot]? = some register ∧
      (destination mnemonic argument).run storage =
        .ok ⟨slot, register⟩ storage := by
  obtain rfl := RegisterBank.destination_eq_ok found
  obtain ⟨slot, isSlot, inSlot, run⟩ := run_place?_of_bound coherent
    (RegisterBank.register_eq_ok_iff.1 found)
  refine ⟨slot, isSlot, inSlot, ?_⟩
  rw [destination, run_bind_of_ok run]
  rfl

theorem run_destination_of_error (coherent : storage.Coherent)
    {argument : Argument} {fault : Fault}
    (failed : storage.machine.registers.destination mnemonic argument =
      .error fault) :
    (destination mnemonic argument).run storage =
      .error (.refused fault) storage := by
  cases argument with
  | literal value =>
    cases failed
    rfl
  | label name =>
    cases failed
    rfl
  | register name =>
    obtain ⟨unbound, rfl⟩ := RegisterBank.register_eq_error_iff.1 failed
    rw [destination, run_bind_of_ok (run_place?_of_unbound coherent unbound)]
    rfl

theorem run_comparison (coherent : storage.Coherent) :
    comparison.run storage = .ok storage.machine.comparison storage := by
  rw [comparison, run_bind_of_ok (run_read? coherent comparisonRegister)]
  rfl

theorem run_labels? (coherent : storage.Coherent) :
    labels?.run storage = .ok storage.machine.labels? storage := by
  rw [labels?, run_bind_of_ok (run_read? coherent labelRegister)]
  rfl

theorem run_target (coherent : storage.Coherent) (argument : Argument) :
    (target argument).run storage =
      answer storage (storage.machine.target argument) := by
  cases argument with
  | literal address => rfl
  | register name => rfl
  | label name =>
    rw [target, run_bind_of_ok (run_labels? coherent), Machine.target]
    cases storage.machine.labels?.bind fun labels => labels.get? name <;> rfl

/-- A destination is followed by what is said to follow its register.  The slot
is that of its name. -/
theorem run_destination_bind (coherent : storage.Coherent)
    {argument : Argument} {next : Place → Procedure table Unit}
    {after : Register → Except Fault (Storage table)}
    (goesOn : ∀ slot register, storage.slot? register.name = some slot →
      storage.registers[slot]? = some register →
      (next ⟨slot, register⟩).run storage = settled storage (after register)) :
    (destination mnemonic argument >>= next).run storage =
      settled storage ((storage.machine.registers.destination mnemonic
        argument).bind after) := by
  rw [EStateM.run_bind]
  cases found : storage.machine.registers.destination mnemonic argument with
  | error fault =>
    rw [run_destination_of_error coherent found]
    rfl
  | ok register =>
    obtain ⟨slot, isSlot, inSlot, run⟩ := run_destination_of_ok coherent found
    rw [run]
    exact goesOn slot register isSlot inSlot

/-- Operands are followed by what is said to follow the result of a calculation
with them. -/
theorem run_operands_bind (coherent : storage.Coherent)
    (compute : Word → Word → Word) (target : Argument)
    (operand : Option Argument) {next : Place → Word → Word → Procedure table Unit}
    {after : Name × Word → Except Fault (Storage table)}
    (goesOn : ∀ slot register current operand,
      storage.slot? register.name = some slot →
      storage.registers[slot]? = some register →
      (next ⟨slot, register⟩ current operand).run storage =
        settled storage (after (register.name, compute current operand))) :
    (amount operand >>= fun operand =>
        destination mnemonic target >>= fun place =>
          ofExcept place.register.number >>= fun current =>
            next place current operand).run storage =
      settled storage ((storage.machine.registers.computed mnemonic compute
        target operand).bind after) := by
  rw [RegisterBank.computed_bind]
  refine run_bind_settled (run_amount coherent operand) fun operand => ?_
  refine run_destination_bind coherent fun slot register isSlot inSlot => ?_
  refine run_bind_settled (run_ofExcept _ storage) fun current => ?_
  exact goesOn slot register current operand isSlot inSlot

/-- The label table is that of the label register, or an empty one.  If the cell
around it has been replaced, this is forgotten with the next replacement. -/
theorem run_ensureLabels {provided : Storage table} {bound : Register}
    (provisioned : storage.provision ⟨labelRegister, .labels .empty⟩ =
      (provided, slot))
    (inSlot : provided.registers[slot]? = some bound) :
    ∃ changed register,
      ensureLabels.run storage =
          .ok (slot, bound.cell.asLabels?.getD .empty) changed ∧
        changed.registers[slot]? = some register ∧
        ∀ cell, changed.rewrite slot (fun _ => cell) =
          provided.rewrite slot fun _ => cell := by
  rw [ensureLabels]
  simp only [EStateM.run_bind, provision, EStateM.run_modifyGet, provisioned,
    run_registerAt inSlot]
  cases holds : bound.cell.asLabels? with
  | some labels =>
    refine ⟨provided, bound, ?_, inSlot, fun _ => rfl⟩
    simp [holds, run_registerAt inSlot, demand]
  | none =>
    have emptied : (provided.rewrite slot fun _ =>
        .labels .empty).registers[slot]? =
          some ⟨bound.name, .labels .empty⟩ := by
      rw [registers_rewrite, if_pos rfl, inSlot, Option.map_some]
    refine ⟨_, _, ?_, emptied, fun cell => rewrite_rewrite provided slot _ _⟩
    simp [run_overwrite inSlot, run_registerAt emptied, demand, Cell.asLabels?]

/-- A register that has just been bound is in the slot that is told. -/
theorem exists_provisioned [LawfulSlotTable table]
    (coherent : storage.Coherent) (register : Register) :
    ∃ bound, (storage.provision register).1.registers[
      (storage.provision register).2]? = some bound := by
  obtain ⟨bound, inSlot, _⟩ :=
    (slot?_machine_eq_some_iff (coherent.provision register).distinct).1
      (slot?_provision coherent register)
  exact ⟨bound, inSlot⟩

theorem run_setComparison [LawfulSlotTable table]
    (coherent : storage.Coherent) (difference : Word) :
    (setComparison difference).run storage =
      .ok () (storage.setComparison difference) := by
  obtain ⟨bound, inSlot⟩ :=
    exists_provisioned coherent (.zero comparisonRegister)
  rw [setComparison, EStateM.run_bind, provision, EStateM.run_modifyGet]
  exact run_overwrite inSlot _

theorem run_changeLabels [LawfulSlotTable table] (coherent : storage.Coherent)
    (change : LabelTable → LabelTable) :
    (changeLabels change).run storage =
      .ok () (storage.changeLabels change) := by
  obtain ⟨bound, inSlot⟩ :=
    exists_provisioned coherent ⟨labelRegister, .labels .empty⟩
  obtain ⟨changed, register, run, written, forgets⟩ :=
    run_ensureLabels rfl inSlot
  rw [changeLabels, run_bind_of_ok run]
  simp only [run_overwrite written, forgets]
  rw [Storage.changeLabels, Storage.update]
  congr 1
  exact rewrite_congr inSlot rfl

theorem run_insertLabel [LawfulSlotTable table]
    (coherent : storage.Coherent) (label : Name)
    (address : Word) :
    (insertLabel label address).run storage =
      .ok () (storage.changeLabels fun labels =>
        labels.insert label address) :=
  run_changeLabels coherent fun labels => labels.insert label address

theorem run_move (coherent : storage.Coherent) (target source : Argument) :
    (move [target, source]).run storage =
      settled storage
        ((Mnemonic.mov.effect storage.machine [target, source]).bind
          storage.apply) := by
  have statements : (move [target, source] : Procedure table Unit) =
      destination .mov target >>= fun place =>
        overwrite place.slot source.toCell := rfl
  have effect : (Mnemonic.mov.effect storage.machine [target, source]).bind
      storage.apply =
        (storage.machine.registers.destination .mov target).bind fun register =>
          storage.apply (.store register.name source.toCell) := by
    rw [Mnemonic.effect, Mnemonic.moveEffect]
    cases storage.machine.registers.destination .mov target <;> rfl
  rw [statements, effect]
  refine run_destination_bind coherent fun slot register isSlot inSlot => ?_
  rw [run_overwrite inSlot, Storage.apply, write_of_slot isSlot]
  rfl

theorem run_arithmetic (coherent : storage.Coherent)
    (compute : Word → Word → Word) (target : Argument)
    (operand : Option Argument)
    (accepts : mnemonic.arity.accepts
      (target :: operand.toList).length = true) :
    (arithmetic mnemonic compute (target :: operand.toList)).run storage =
      settled storage
        ((Mnemonic.arithmeticEffect storage.machine.registers mnemonic compute
          target operand).bind storage.apply) := by
  have statements : (arithmetic mnemonic compute (target :: operand.toList) :
      Procedure table Unit) =
        amount operand >>= fun operand =>
          destination mnemonic target >>= fun place =>
            ofExcept place.register.number >>= fun current =>
              overwrite place.slot (.number (compute current operand)) := by
    rw [arithmetic, checkArity, if_pos accepts]
    cases operand <;> rfl
  have effect : (Mnemonic.arithmeticEffect storage.machine.registers mnemonic
      compute target operand).bind storage.apply =
        (storage.machine.registers.computed mnemonic compute target
          operand).bind fun result =>
            storage.apply (.store result.1 (.number result.2)) := by
    rw [Mnemonic.arithmeticEffect]
    cases storage.machine.registers.computed mnemonic compute target operand <;>
      rfl
  rw [statements, effect]
  refine run_operands_bind coherent compute target operand ?_
  intro slot register current operand isSlot inSlot
  rw [run_overwrite inSlot, Storage.apply, write_of_slot isSlot]
  rfl

theorem run_compare [LawfulSlotTable table] (coherent : storage.Coherent)
    (target : Argument) (operand : Option Argument) :
    (compare (target :: operand.toList)).run storage =
      settled storage
        ((Mnemonic.compareEffect storage.machine.registers target operand).bind
          storage.apply) := by
  have statements : (compare (target :: operand.toList) : Procedure table Unit) =
        amount operand >>= fun operand =>
          destination .cmp target >>= fun place =>
            ofExcept place.register.number >>= fun current =>
              setComparison (current - operand) := by
    cases operand <;> rfl
  have effect : (Mnemonic.compareEffect storage.machine.registers target
      operand).bind storage.apply =
        (storage.machine.registers.computed .cmp (· - ·) target operand).bind
          fun result => storage.apply (.compare result.2) := by
    rw [Mnemonic.compareEffect]
    cases storage.machine.registers.computed .cmp (· - ·) target operand <;> rfl
  rw [statements, effect]
  refine run_operands_bind coherent (· - ·) target operand ?_
  intro slot register current operand _ _
  exact run_setComparison coherent _

theorem run_label [LawfulSlotTable table] (coherent : storage.Coherent)
    (argument : Argument) :
    (label [argument]).run storage =
      settled storage
        ((Mnemonic.labelEffect storage.machine argument).bind
          storage.apply) := by
  rw [label, run_bind_of_ok (run_checkArity rfl storage),
    run_bind_of_ok (run_argument List.getElem?_cons_zero storage)]
  cases argument with
  | literal value => rfl
  | register name => rfl
  | label name =>
    simp only
    rw [run_bind_of_ok (EStateM.run_get storage), coherent.counted,
      run_insertLabel coherent]
    rfl

theorem run_jump (coherent : storage.Coherent) (condition : Condition)
    (argument : Argument) :
    (jump condition [argument]).run storage =
      settled storage
        ((Mnemonic.jumpEffect storage.machine condition argument).bind
          storage.apply) := by
  have statements : (jump condition [argument] : Procedure table Unit) =
      comparison >>= fun flag =>
        if condition.holds flag then target argument >>= jumpTo
        else pure () := rfl
  rw [statements, run_bind_of_ok (run_comparison coherent),
    Mnemonic.jumpEffect]
  cases condition.holds storage.machine.comparison with
  | false => rfl
  | true =>
    have effect : ((storage.machine.target argument).map Effect.goto).bind
        storage.apply = (storage.machine.target argument).bind storage.jump := by
      cases storage.machine.target argument <;> rfl
    rw [if_pos rfl, if_pos rfl, effect]
    exact run_bind_settled (run_target coherent argument) (run_jumpTo storage)

/-- All operations check the number of their arguments first. -/
theorem exists_execute_eq (mnemonic : Mnemonic) (arguments : List Argument) :
    ∃ rest, (execute mnemonic arguments : Procedure table Unit) =
      checkArity mnemonic arguments.length >>= rest := by
  cases mnemonic <;> exact ⟨_, rfl⟩

/-- Statement by statement an operation does what it does as a whole. -/
theorem run_execute [LawfulSlotTable table] (coherent : storage.Coherent)
    (mnemonic : Mnemonic) (arguments : List Argument) :
    (execute mnemonic arguments).run storage =
      settled storage (storage.execute mnemonic arguments) := by
  rw [Storage.execute, effect_eq coherent]
  cases accepted : mnemonic.arity.accepts arguments.length with
  | false =>
    obtain ⟨rest, checksFirst⟩ : ∃ rest,
        (execute mnemonic arguments : Procedure table Unit) =
          checkArity mnemonic arguments.length >>= rest :=
      exists_execute_eq mnemonic arguments
    rw [Mnemonic.effect_of_not_accepts _ accepted, checksFirst,
      EStateM.run_bind, run_checkArity_of_not accepted]
    rfl
  | true =>
    cases Mnemonic.shape_of_accepts accepted with
    | mov target source => exact run_move coherent target source
    | inc target operand =>
      rw [Mnemonic.effect_inc]
      exact run_arithmetic coherent _ target operand accepted
    | dec target operand =>
      rw [Mnemonic.effect_dec]
      exact run_arithmetic coherent _ target operand accepted
    | cmp target operand =>
      rw [Mnemonic.effect_cmp]
      exact run_compare coherent target operand
    | label argument => exact run_label coherent argument
    | jump condition argument => exact run_jump coherent condition argument

/-- Whatever has been done to a stored machine, and whatever its registers hold,
a basic operation that stops has refused for a fault, and it leaves all parts of
the storage as they were.  It fails for the same fault when it is performed as a
whole, and otherwise both ways lead to the same machine. -/
theorem failing_operation_changes_nothing [LawfulSlotTable table]
    (names : List Name) (provisioned : List Register) (commands : List Command)
    (mnemonic : Mnemonic) (arguments : List Argument)
    (reached : storage = (ofRegisters names provisioned).performAll commands) :
    (∀ stop after, (execute mnemonic arguments).run storage =
        .error stop after →
      after = storage ∧ ∃ fault, stop = .refused fault ∧
        mnemonic.execute arguments storage.machine =
          .failed fault storage.machine) ∧
    ∀ after, (execute mnemonic arguments).run storage = .ok () after →
      after.Coherent ∧
        mnemonic.execute arguments storage.machine = .done after.machine := by
  have coherent : storage.Coherent := by
    rw [reached]
    exact (coherent_ofRegisters names provisioned).performAll commands
  have asWhole := outcome_execute coherent mnemonic arguments
  have stays := coherent.perform (.execute mnemonic arguments)
  rw [Storage.perform] at stays
  rw [run_execute coherent]
  cases worked : storage.execute mnemonic arguments with
  | ok changed =>
    rw [worked] at asWhole stays
    constructor
    · intro stop after stopped
      cases stopped
    · intro after succeeded
      cases succeeded
      exact ⟨stays, asWhole⟩
  | error fault =>
    rw [worked] at asWhole
    constructor
    · intro stop after stopped
      cases stopped
      exact ⟨rfl, fault, rfl, asWhole⟩
    · intro after succeeded
      cases succeeded

/-- A comparison that reads a label, before any comparison has bound the register
for its result. -/
theorem comparison_of_label_changes_nothing :
    ∃ storage : Storage PairTable,
      storage = (ofRegisters ["ax"] []).performAll
          [.write "ax" (.label "top")] ∧
        storage.names = ["ax"] ∧
        ∃ stop after,
          (execute .cmp [.register "ax"]).run storage = .error stop after ∧
            after = storage ∧
            Mnemonic.cmp.execute [.register "ax"] storage.machine =
              .failed (.notANumber "ax" (.label "top")) storage.machine := by
  obtain ⟨fails, _⟩ := failing_operation_changes_nothing ["ax"] []
    [.write "ax" (.label "top")] .cmp [.register "ax"]
    (rfl : (_ : Storage PairTable) = _)
  refine ⟨_, rfl, rfl, _, _, rfl, ?_⟩
  obtain ⟨unchanged, _, refused, failed⟩ := fails _ _ rfl
  cases refused
  exact ⟨unchanged, failed⟩

end Procedure

end RegisterMachine

import RegisterMachine.Proofs.Atomicity

/-!
# What operations change

A basic operation that succeeds changes one thing: a move and arithmetic the
cell of their destination, a comparison the cell of the comparison register, the
definition of a label one entry of the label table, and a jump the counter.  All
other parts of the stored machine are as before, slot by slot.  What an
operation computes with it has read before its change, so its operands may be
the register to which it writes.
-/

namespace RegisterMachine

namespace Storage

variable {table : Type} [SlotTable table]

/-- The slot of the register bound to `name`, or the slot that it gets when it
is bound next. -/
def slotFor (storage : Storage table) (name : Name) : Nat :=
  (storage.slot? name).getD storage.registers.size

/-- The table in the label register, or an empty one if it holds none. -/
def labelTable (storage : Storage table) : LabelTable :=
  ((storage.register? labelRegister).bind fun register =>
    register.cell.asLabels?).getD .empty

/-- The number that an optional argument stands for. -/
inductive StandsFor (storage : Storage table) : Option Argument → Word → Prop
  | missing : StandsFor storage none 1
  | literal (value : Word) : StandsFor storage (some (.literal value)) value
  | register {name : Name} {value : Word}
      (holds : storage.register? name = some ⟨name, .number value⟩) :
      StandsFor storage (some (.register name)) value

/-- The register `name` holds `cell` afterwards.  If it was not bound before, it
is bound in the slot behind all others.  Nothing else has changed. -/
structure SetsOnly (name : Name) (cell : Cell) (before after : Storage table) :
    Prop where
  instructions : after.instructions = before.instructions
  assembled : after.assembled = before.assembled
  counter : after.counter = before.counter
  slots : ∀ wanted, after.slot? wanted =
    if wanted = name then some (before.slotFor name) else before.slot? wanted
  registers : ∀ slot, after.registers[slot]? =
    if slot = before.slotFor name then some ⟨name, cell⟩
    else before.registers[slot]?

/-- What an operation that succeeds reads before its change, and what it
changes. -/
inductive Changes (before after : Storage table) :
    Mnemonic → List Argument → Prop
  | mov {name : Name} (source : Argument)
      (bound : (before.slot? name).isSome)
      (sets : SetsOnly name source.toCell before after) :
      Changes before after .mov [.register name, source]
  | inc {name : Name} {amount : Option Argument} {current operand result : Word}
      (holds : before.register? name = some ⟨name, .number current⟩)
      (stands : before.StandsFor amount operand)
      (sum : result.toInt = (current.toInt + operand.toInt).bmod (2 ^ 64))
      (sets : SetsOnly name (.number result) before after) :
      Changes before after .inc (.register name :: amount.toList)
  | dec {name : Name} {amount : Option Argument} {current operand result : Word}
      (holds : before.register? name = some ⟨name, .number current⟩)
      (stands : before.StandsFor amount operand)
      (difference :
        result.toInt = (current.toInt - operand.toInt).bmod (2 ^ 64))
      (sets : SetsOnly name (.number result) before after) :
      Changes before after .dec (.register name :: amount.toList)
  | cmp {name : Name} {amount : Option Argument} {current operand result : Word}
      (holds : before.register? name = some ⟨name, .number current⟩)
      (stands : before.StandsFor amount operand)
      (difference :
        result.toInt = (current.toInt - operand.toInt).bmod (2 ^ 64))
      (sets : SetsOnly comparisonRegister (.number result) before after) :
      Changes before after .cmp (.register name :: amount.toList)
  | label {name : Name} {labels : LabelTable}
      (entries : ∀ other, labels.get? other =
        if other = name then some (Int64.ofNat before.assembled - 1)
        else before.labelTable.get? other)
      (sets : SetsOnly labelRegister (.labels labels) before after) :
      Changes before after .label [.label name]
  | stay {condition : Condition} (argument : Argument)
      (notMet : condition.holds before.machine.comparison = false)
      (same : after = before) :
      Changes before after (.jump condition) [argument]
  | leap {condition : Condition} {argument : Argument} {target : Word}
      (met : condition.holds before.machine.comparison = true)
      (found : before.machine.target argument = .ok target)
      (notBefore : -1 ≤ target.toInt)
      (moved : after = { before with counter := ⟨target⟩ }) :
      Changes before after (.jump condition) [argument]

/-- What a move stores is its source as given: the number of a literal, but the
identity of a register and the bare symbol of a label, whatever they lead to. -/
theorem Changes.mov_iff {before after : Storage table}
    {arguments : List Argument} :
    Changes before after .mov arguments ↔
      ∃ name source, arguments = [.register name, source] ∧
        (before.slot? name).isSome ∧
        ((∃ value, source = .literal value ∧
            SetsOnly name (.number value) before after) ∨
          (∃ other, source = .register other ∧
            SetsOnly name (.register other) before after) ∨
          ∃ label, source = .label label ∧
            SetsOnly name (.label label) before after) := by
  constructor
  · intro changes
    cases changes with
    | @mov name source bound sets =>
      refine ⟨name, source, rfl, bound, ?_⟩
      cases source with
      | literal value => exact .inl ⟨value, rfl, sets⟩
      | register other => exact .inr (.inl ⟨other, rfl, sets⟩)
      | label label => exact .inr (.inr ⟨label, rfl, sets⟩)
  · rintro ⟨name, source, rfl, bound, stored⟩
    obtain ⟨value, rfl, sets⟩ | ⟨other, rfl, sets⟩ | ⟨label, rfl, sets⟩ :=
      stored
    · exact .mov (.literal value) bound sets
    · exact .mov (.register other) bound sets
    · exact .mov (.label label) bound sets

/-- Storages that differ at most in the way in which they keep their slots. -/
structure Same (first second : Storage table) : Prop where
  instructions : first.instructions = second.instructions
  assembled : first.assembled = second.assembled
  counter : first.counter = second.counter
  slots : ∀ name, first.slot? name = second.slot? name
  registers : first.registers = second.registers

variable {before after storage : Storage table} {name : Name} {cell : Cell}

theorem register?_eq_find? (coherent : storage.Coherent) (name : Name) :
    storage.register? name = storage.machine.registers.find? name := by
  rw [register?, coherent.slot?_eq, RegisterBank.find?_eq_bind_slot?]
  simp [machine]

theorem register?_eq_some_iff (coherent : storage.Coherent) :
    storage.register? name = some ⟨name, cell⟩ ↔
      storage.machine.read? name = some cell := by
  rw [register?_eq_find? coherent, RegisterBank.find?_eq_map_read?,
    Machine.read?]
  simp

theorem standsFor_iff (coherent : storage.Coherent) {amount : Option Argument}
    {value : Word} :
    storage.StandsFor amount value ↔
      storage.machine.registers.amount amount = .ok value := by
  constructor
  · intro stands
    cases stands with
    | missing => rfl
    | literal value => rfl
    | @register name _ holds =>
      have found : storage.machine.registers.register name =
          .ok ⟨name, .number value⟩ :=
        RegisterBank.register_eq_ok_iff_read?.2
          ⟨rfl, (register?_eq_some_iff coherent).1 holds⟩
      rw [RegisterBank.amount, found]
      rfl
  · intro resolves
    cases amount with
    | none =>
      cases resolves
      exact .missing
    | some argument =>
      cases argument with
      | literal value =>
        cases resolves
        exact .literal value
      | label name => cases resolves
      | register name =>
        obtain ⟨register, found, isNumber⟩ := bind_eq_ok_iff.1 resolves
        obtain ⟨rfl, reads⟩ := RegisterBank.register_eq_ok_iff_read?.1 found
        rw [Register.number_eq_ok_iff.1 isNumber] at reads
        exact .register ((register?_eq_some_iff coherent).2 reads)

theorem labelTable_machine (coherent : storage.Coherent) :
    storage.machine.labelTable = storage.labelTable := by
  rw [Machine.labelTable, Machine.labels?, Machine.read?, RegisterBank.read?,
    Option.bind_map, labelTable, register?_eq_find? coherent]
  rfl

/-- A register that is provisioned gets the slot that is meant for it. -/
theorem snd_provision (storage : Storage table) (register : Register) :
    (storage.provision register).2 = storage.slotFor register.name := by
  rw [slotFor]
  cases isSlot : storage.slot? register.name with
  | some slot => rw [provision_of_slot isSlot, Option.getD_some]
  | none => rw [provision_of_new isSlot, Option.getD_none]

/-- A register that holds what it is to hold need not be changed. -/
theorem setsOnly_refl (holds : storage.register? name = some ⟨name, cell⟩) :
    SetsOnly name cell storage storage := by
  obtain ⟨slot, isSlot, inSlot⟩ := Option.bind_eq_some_iff.1 holds
  have sameSlot : storage.slotFor name = slot := by
    rw [slotFor, isSlot, Option.getD_some]
  refine ⟨rfl, rfl, rfl, fun wanted => ?_, fun place => ?_⟩
  · by_cases same : wanted = name
    · rw [if_pos same, same, isSlot, sameSlot]
    · rw [if_neg same]
  · by_cases here : place = slot
    · rw [sameSlot, if_pos here, here]
      exact inSlot
    · rw [sameSlot, if_neg here]

/-- Provisioning binds a register behind all others, unless its name is bound
already. -/
theorem setsOnly_provision [LawfulSlotTable table] (coherent : storage.Coherent)
    (register : Register) :
    SetsOnly register.name
      ((storage.machine.read? register.name).getD register.cell) storage
      (storage.provision register).1 := by
  cases isSlot : storage.slot? register.name with
  | some slot =>
    obtain ⟨held, inSlot, sameName⟩ := coherent.leads _ _ isSlot
    have holds : storage.register? register.name =
        some ⟨register.name, held.cell⟩ := by
      rw [register?, isSlot, Option.bind_some, inSlot, ← sameName]
    rw [provision_of_slot isSlot, (register?_eq_some_iff coherent).1 holds]
    exact setsOnly_refl holds
  | none =>
    have unbound := (coherent.bound_iff _).1 isSlot
    have reads : storage.machine.read? register.name = none := by
      rw [Machine.read?, RegisterBank.read?,
        RegisterBank.find?_eq_none_iff.2 unbound, Option.map_none]
    have next : storage.slotFor register.name = storage.registers.size := by
      rw [slotFor, isSlot, Option.getD_none]
    refine ⟨?_, ?_, ?_, fun wanted => ?_, fun place => ?_⟩
    · rw [provision_of_new isSlot]
    · rw [provision_of_new isSlot]
    · rw [provision_of_new isSlot]
    · rw [(coherent.provision register).slot?_eq, machine_provision coherent,
        Machine.provision, RegisterBank.slot?_provision_of_not_mem unbound,
        ← coherent.slot?_eq, next]
      rfl
    · rw [provision_of_new isSlot, next, Array.getElem?_push, reads]
      rfl

/-- The cell that has been set is changed once more. -/
theorem SetsOnly.rewrite (sets : SetsOnly name cell before after)
    (change : Cell → Cell) :
    SetsOnly name (change cell) before
      (after.rewrite (before.slotFor name) change) := by
  refine ⟨sets.instructions, sets.assembled, sets.counter, sets.slots,
    fun slot => ?_⟩
  rw [registers_rewrite, sets.registers]
  by_cases here : slot = before.slotFor name
  · subst here
    simp
  · simp [here, Ne.symm here]

/-- What is set determines the storage. -/
theorem SetsOnly.unique {other : Storage table}
    (sets : SetsOnly name cell before after)
    (again : SetsOnly name cell before other) : after.Same other where
  instructions := sets.instructions.trans again.instructions.symm
  assembled := sets.assembled.trans again.assembled.symm
  counter := sets.counter.trans again.counter.symm
  slots := fun wanted => (sets.slots wanted).trans (again.slots wanted).symm
  registers := Array.ext_getElem? fun slot =>
    (sets.registers slot).trans (again.registers slot).symm

end Storage

namespace Procedure

open Storage

variable {table : Type} [SlotTable table] [LawfulSlotTable table]
  {before after : Storage table} {mnemonic : Mnemonic}
  {arguments : List Argument}

end Procedure

end RegisterMachine

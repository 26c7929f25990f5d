import RegisterMachine.Proofs.BindingOrder
import RegisterMachine.Storage

/-!
# Stored machines

The parts of a stored machine agree before and after every operation: the
number of instructions is the one that is kept beside them, and the table leads
from each name to the one slot whose register has this name.  So a stored
machine does what the machine does whose registers are listed in the order of
their slots, and registers and instructions stay where they are.
-/

namespace RegisterMachine

namespace Machine

variable {first second third : Machine}

/-- Registers and instructions stay where they are, and new ones come after
them. -/
structure GrowsTo (before after : Machine) : Prop where
  names : before.registers.names <+: after.registers.names
  instructions : before.instructions.toList <+: after.instructions.toList

theorem GrowsTo.refl (machine : Machine) : machine.GrowsTo machine :=
  ⟨List.prefix_rfl, List.prefix_rfl⟩

theorem GrowsTo.trans (earlier : first.GrowsTo second)
    (later : second.GrowsTo third) : first.GrowsTo third :=
  ⟨earlier.names.trans later.names,
    earlier.instructions.trans later.instructions⟩

theorem growsTo_write (machine : Machine) (name : Name) (cell : Cell) :
    machine.GrowsTo (machine.write name cell) := by
  have sameNames := RegisterBank.names_write machine.registers name cell
  exact ⟨sameNames ▸ List.prefix_rfl, List.prefix_rfl⟩

theorem growsTo_provision (machine : Machine) (register : Register) :
    machine.GrowsTo (machine.provision register) :=
  ⟨RegisterBank.names_prefix_provision _ _, List.prefix_rfl⟩

theorem growsTo_assign (machine : Machine) (name : Name) (cell : Cell) :
    machine.GrowsTo (machine.assign name cell) :=
  (growsTo_provision machine _).trans (growsTo_write _ name cell)

theorem growsTo_queue (machine : Machine) (instruction : Instruction) :
    machine.GrowsTo (machine.queue instruction) := by
  refine ⟨List.prefix_rfl, ?_⟩
  rw [Machine.queue, Array.toList_push]
  exact List.prefix_append _ _

theorem growsTo_jump (machine : Machine) (target : Word) :
    machine.GrowsTo
      (Outcome.ofExcept machine (machine.jump target)).machine := by
  rw [Machine.jump]
  cases Counter.jump target with
  | ok counter => exact ⟨List.prefix_rfl, List.prefix_rfl⟩
  | error fault => exact .refl machine

theorem growsTo_apply (machine : Machine) (effect : Effect) :
    machine.GrowsTo (effect.apply machine).machine := by
  cases effect with
  | idle => exact .refl machine
  | store register cell => exact growsTo_write machine register cell
  | compare difference => exact growsTo_assign machine _ _
  | define label address => exact growsTo_assign machine _ _
  | goto target => exact growsTo_jump machine target

theorem growsTo_perform (machine : Machine) (command : Command) :
    machine.GrowsTo (machine.perform command) := by
  cases command with
  | provision register => exact growsTo_provision machine register
  | queue instruction => exact growsTo_queue machine instruction
  | jump target => exact growsTo_jump machine target
  | advance => exact ⟨List.prefix_rfl, List.prefix_rfl⟩
  | write name cell => exact growsTo_write machine name cell
  | compare difference => exact growsTo_assign machine _ _
  | changeLabels change => exact growsTo_assign machine _ _
  | execute mnemonic arguments =>
    rw [perform, Mnemonic.execute]
    cases mnemonic.effect machine arguments with
    | ok effect => exact growsTo_apply machine effect
    | error fault => exact .refl machine

theorem growsTo_performAll (machine : Machine) (commands : List Command) :
    machine.GrowsTo (machine.performAll commands) := by
  induction commands generalizing machine with
  | nil => exact .refl machine
  | cons command rest induction =>
    exact (growsTo_perform machine command).trans
      (induction (machine.perform command))

/-- The label table is that of the label register, or of the one that would be
bound in its place. -/
theorem asLabels?_getD (machine : Machine) :
    ((machine.read? labelRegister).getD (.labels .empty)).asLabels?.getD .empty =
      machine.labelTable := by
  rw [labelTable, labels?]
  cases machine.read? labelRegister <;> rfl

end Machine

namespace PairTable

variable {name wanted : Name} {slot : Nat}

/-- Pairs that give way to a new one are not missed in look-ups of other names
with other slots. -/
theorem slot?_filter {pairs : List (Name × Nat)} (different : wanted ≠ name)
    (otherSlot : slot? ⟨pairs⟩ wanted ≠ some slot) :
    slot? ⟨pairs.filter fun pair => pair.1 ≠ name ∧ pair.2 ≠ slot⟩ wanted =
      slot? ⟨pairs⟩ wanted := by
  induction pairs with
  | nil => rfl
  | cons pair rest induction =>
    by_cases here : pair.1 = wanted
    · subst here
      have kept : pair.2 ≠ slot := by simpa [slot?] using otherSlot
      simp [slot?, different, kept]
    · have later : slot? ⟨pair :: rest⟩ wanted = slot? ⟨rest⟩ wanted := by
        simp [slot?, here]
      rw [later] at otherSlot
      rw [later, ← induction otherSlot, List.filter_cons]
      split
      next => simp [slot?, here]
      next => rfl

instance : LawfulSlotTable PairTable where
  slot?_empty := fun _ => rfl
  slot?_insert := by
    intro slots name slot newName newSlot wanted
    change slot? (insert slots name slot) wanted =
      if wanted = name then some slot else slot? slots wanted
    by_cases same : wanted = name
    · subst same
      have gone : (slots.pairs.filter fun pair =>
          pair.1 ≠ wanted ∧ pair.2 ≠ slot).find?
            (fun pair => pair.1 == wanted) = none := by
        apply List.find?_eq_none.2
        intro pair isKept
        simpa using (of_decide_eq_true (List.mem_filter.1 isKept).2).1
      rw [if_pos rfl, slot?, insert, List.find?_append, gone]
      simp
    · rw [if_neg same, ← slot?_filter same (newSlot wanted)]
      simp [slot?, insert, Ne.symm same]

end PairTable

namespace Storage

section Layout

variable {table : Type} {storage : Storage table} {name : Name} {slot : Nat}

def machine (storage : Storage table) : Machine :=
  ⟨storage.instructions, storage.counter, ⟨storage.registers.toList⟩⟩

theorem names_machine (storage : Storage table) :
    storage.machine.registers.names = storage.names :=
  rfl

theorem slot?_machine_eq_some_iff (distinct : storage.names.Nodup) :
    storage.machine.registers.slot? name = some slot ↔
      ∃ register, storage.registers[slot]? = some register ∧
        register.name = name := by
  rw [← names_machine] at distinct
  rw [RegisterBank.slot?_eq_some_iff distinct, names_machine, names,
    List.getElem?_map, Option.map_eq_some_iff, Array.getElem?_toList]

theorem distinct_machine (distinct : storage.names.Nodup) :
    storage.machine.registers.names.Nodup :=
  distinct

theorem names_rewrite (storage : Storage table) (slot : Nat)
    (change : Cell → Cell) :
    (storage.rewrite slot change).names = storage.names := by
  apply List.ext_getElem?
  intro place
  simp only [names, rewrite, Array.toList_modify, List.getElem?_map,
    List.getElem?_modify]
  by_cases here : slot = place
  · simp [here, Function.comp_def]
  · simp [here]

theorem settle_jump (storage : Storage table) (target : Word) :
    (storage.settle (storage.jump target)).machine =
      (Outcome.ofExcept storage.machine
        (storage.machine.jump target)).machine := by
  rw [Storage.jump, Machine.jump]
  cases Counter.jump target <;> rfl

end Layout

variable {table : Type} [SlotTable table] {storage : Storage table}
  {register : Register} {name : Name} {slot : Nat} {cell : Cell}

/-- The parts of a storage agree.  The table leads from a name to a register of
this name, and each register is reached by one name. -/
structure Coherent (storage : Storage table) : Prop where
  counted : storage.assembled = storage.instructions.size
  leads : ∀ name slot, storage.slot? name = some slot →
    ∃ register, storage.registers[slot]? = some register ∧ register.name = name
  reached : ∀ slot < storage.registers.size,
    ∃! name, storage.slot? name = some slot
  distinct : storage.names.Nodup

/-- In a coherent storage the table tells the slots of the bank. -/
theorem Coherent.slot?_eq (coherent : storage.Coherent) (name : Name) :
    storage.slot? name = storage.machine.registers.slot? name := by
  apply Option.ext
  intro slot
  rw [slot?_machine_eq_some_iff coherent.distinct]
  constructor
  · exact coherent.leads name slot
  · rintro ⟨register, isRegister, rfl⟩
    have inside := (Array.getElem?_eq_some_iff.1 isRegister).1
    obtain ⟨name, isSlot, _⟩ := coherent.reached slot inside
    obtain ⟨other, isOther, rfl⟩ := coherent.leads name slot isSlot
    obtain rfl := Option.some.inj (isRegister.symm.trans isOther)
    exact isSlot

theorem coherent_of_slots
    (counted : storage.assembled = storage.instructions.size)
    (slots : ∀ name, storage.slot? name =
      storage.machine.registers.slot? name)
    (distinct : storage.names.Nodup) : storage.Coherent where
  counted := counted
  distinct := distinct
  leads := by
    intro name slot isSlot
    exact (slot?_machine_eq_some_iff distinct).1 ((slots name).symm.trans isSlot)
  reached := by
    intro slot inside
    have isRegister := Array.getElem?_eq_getElem inside
    refine ⟨storage.registers[slot].name, ?_, ?_⟩
    · apply (slots _).trans
      exact (slot?_machine_eq_some_iff distinct).2 ⟨_, isRegister, rfl⟩
    · intro other isSlot
      obtain ⟨register, again, rfl⟩ :=
        (slot?_machine_eq_some_iff distinct).1 ((slots other).symm.trans isSlot)
      rw [Option.some.inj (again.symm.trans isRegister)]

theorem Coherent.bound_iff (coherent : storage.Coherent) (name : Name) :
    storage.slot? name = none ↔ name ∉ storage.machine.registers.names := by
  rw [coherent.slot?_eq, RegisterBank.slot?_eq_none_iff]

theorem provision_of_slot (isSlot : storage.slot? register.name = some slot) :
    storage.provision register = (storage, slot) := by
  simp [provision, isSlot]

theorem provision_of_new (isNew : storage.slot? register.name = none) :
    storage.provision register =
      ({ storage with
          slots := SlotTable.insert storage.slots register.name
            storage.registers.size
          registers := storage.registers.push register },
        storage.registers.size) := by
  simp [provision, isNew]

theorem machine_provision (coherent : storage.Coherent) (register : Register) :
    (storage.provision register).1.machine =
      storage.machine.provision register := by
  rw [Machine.provision]
  cases isSlot : storage.slot? register.name with
  | some slot =>
    have bound : register.name ∈ storage.machine.registers.names := by
      by_contra unbound
      cases isSlot.symm.trans ((coherent.bound_iff _).2 unbound)
    rw [provision_of_slot isSlot, RegisterBank.provision_of_mem bound]
  | none =>
    have unbound := (coherent.bound_iff _).1 isSlot
    rw [provision_of_new isSlot, RegisterBank.provision_of_not_mem unbound]
    simp [machine]

/-- The slot that is told is the slot of the register. -/
theorem slot?_provision (coherent : storage.Coherent) (register : Register) :
    (storage.provision register).1.machine.registers.slot? register.name =
      some (storage.provision register).2 := by
  cases isSlot : storage.slot? register.name with
  | some slot => rw [provision_of_slot isSlot, ← coherent.slot?_eq, isSlot]
  | none =>
    have unbound := (coherent.bound_iff _).1 isSlot
    rw [machine_provision coherent, Machine.provision,
      RegisterBank.slot?_provision_of_not_mem unbound, if_pos rfl,
      provision_of_new isSlot]
    simp [machine]

theorem Coherent.provision [LawfulSlotTable table]
    (coherent : storage.Coherent) (register : Register) :
    (storage.provision register).1.Coherent := by
  have stored := machine_provision coherent register
  cases isSlot : storage.slot? register.name with
  | some slot =>
    rw [provision_of_slot isSlot]
    exact coherent
  | none =>
    have unbound := (coherent.bound_iff _).1 isSlot
    have newSlot : ∀ other,
        storage.slot? other ≠ some storage.registers.size := by
      intro other isOther
      obtain ⟨_, isRegister, _⟩ := coherent.leads other _ isOther
      simp at isRegister
    apply coherent_of_slots
    · rw [provision_of_new isSlot]
      exact coherent.counted
    · intro wanted
      rw [stored, Machine.provision,
        RegisterBank.slot?_provision_of_not_mem unbound, ← coherent.slot?_eq,
        provision_of_new isSlot]
      exact (LawfulSlotTable.slot?_insert storage.slots register.name _ isSlot
        newSlot wanted).trans (by simp [machine, Storage.slot?])
    · rw [← names_machine, stored]
      exact RegisterBank.nodup_names_provision register
        (distinct_machine coherent.distinct)

theorem Coherent.rewrite (coherent : storage.Coherent) (slot : Nat)
    (change : Cell → Cell) : (storage.rewrite slot change).Coherent := by
  have sameNames := names_rewrite storage slot change
  refine coherent_of_slots coherent.counted ?_ ?_
  · intro name
    have slots := coherent.slot?_eq name
    rw [RegisterBank.slot?_eq, names_machine] at slots ⊢
    rw [sameNames, ← slots]
    rfl
  · rw [sameNames]
    exact coherent.distinct

theorem machine_rewrite (coherent : storage.Coherent)
    (isSlot : storage.machine.registers.slot? name = some slot)
    (reads : storage.machine.read? name = some cell) (change : Cell → Cell) :
    (storage.rewrite slot change).machine =
      storage.machine.write name (change cell) := by
  have written := RegisterBank.modify_eq_write
    (distinct_machine coherent.distinct) isSlot reads change
  rw [Machine.write, ← written]
  simp [machine, Storage.rewrite]

theorem Coherent.write (coherent : storage.Coherent) (name : Name)
    (cell : Cell) : (storage.write name cell).Coherent := by
  rw [Storage.write]
  split
  next slot _ => exact coherent.rewrite slot _
  next => exact coherent

theorem machine_write (coherent : storage.Coherent) (name : Name)
    (cell : Cell) :
    (storage.write name cell).machine = storage.machine.write name cell := by
  rw [Storage.write]
  split
  next slot isSlot =>
    rw [coherent.slot?_eq] at isSlot
    obtain ⟨old, reads⟩ := RegisterBank.exists_read?_of_slot? isSlot
    exact machine_rewrite coherent isSlot reads _
  next isNew =>
    have unbound := (coherent.bound_iff name).1 isNew
    rw [Machine.write, RegisterBank.write_of_not_mem cell unbound]

theorem Coherent.update [LawfulSlotTable table] (coherent : storage.Coherent)
    (register : Register) (change : Cell → Cell) :
    (storage.update register change).Coherent :=
  (coherent.provision register).rewrite _ change

/-- An update changes what is in the register, or what it is bound with. -/
theorem machine_update [LawfulSlotTable table] (coherent : storage.Coherent)
    (register : Register) (change : Cell → Cell) :
    (storage.update register change).machine =
      (storage.machine.provision register).write register.name
        (change ((storage.machine.read? register.name).getD register.cell)) := by
  have stored := machine_provision coherent register
  have reads : (storage.provision register).1.machine.read? register.name =
      some ((storage.machine.read? register.name).getD register.cell) := by
    rw [stored, Machine.provision, Machine.read?, RegisterBank.read?_provision]
    cases reads : storage.machine.registers.read? register.name <;>
      simp [Machine.read?, reads]
  rw [← stored]
  exact machine_rewrite (coherent.provision register)
    (slot?_provision coherent register) reads change

theorem Coherent.setComparison [LawfulSlotTable table]
    (coherent : storage.Coherent) (difference : Word) :
    (storage.setComparison difference).Coherent :=
  coherent.update _ _

theorem Coherent.changeLabels [LawfulSlotTable table]
    (coherent : storage.Coherent) (change : LabelTable → LabelTable) :
    (storage.changeLabels change).Coherent :=
  coherent.update _ _

theorem machine_setComparison [LawfulSlotTable table]
    (coherent : storage.Coherent) (difference : Word) :
    (storage.setComparison difference).machine =
      storage.machine.setComparison difference := by
  rw [Storage.setComparison, machine_update coherent, Machine.setComparison,
    Machine.assign, Machine.write, Machine.write]
  congr 1
  exact RegisterBank.write_provision _ _ _ _

theorem machine_changeLabels [LawfulSlotTable table]
    (coherent : storage.Coherent) (change : LabelTable → LabelTable) :
    (storage.changeLabels change).machine =
      storage.machine.setLabels (change storage.machine.labelTable) := by
  rw [Storage.changeLabels, machine_update coherent, Machine.asLabels?_getD,
    Machine.setLabels, Machine.assign, Machine.write, Machine.write]
  congr 1
  exact RegisterBank.write_provision _ _ _ _

theorem register?_of_mem (coherent : storage.Coherent)
    (isRegister : register ∈ storage.registers.toList) :
    storage.register? register.name = some register := by
  obtain ⟨slot, inSlot⟩ := List.mem_iff_getElem?.1 isRegister
  have isSlot := RegisterBank.slot?_of_getElem?
    (distinct_machine coherent.distinct) inSlot
  rw [Storage.register?, coherent.slot?_eq, isSlot, Option.bind_some,
    ← Array.getElem?_toList]
  exact inSlot

/-- Operations see all registers, since every name leads to its register. -/
theorem seen_eq_machine (coherent : storage.Coherent) :
    storage.seen = storage.machine := by
  have all : storage.registers.toList.filterMap (fun register =>
      storage.register? register.name) = storage.registers.toList := by
    conv_rhs => rw [← List.filterMap_some (l := storage.registers.toList)]
    exact List.filterMap_congr fun _ isRegister =>
      register?_of_mem coherent isRegister
  rw [seen, all, machine]

theorem effect_eq (coherent : storage.Coherent) (mnemonic : Mnemonic)
    (arguments : List Argument) :
    storage.effect mnemonic arguments =
      mnemonic.effect storage.machine arguments := by
  unfold Storage.effect
  split
  next name =>
    rw [coherent.counted]
    rfl
  next => rw [seen_eq_machine coherent]

theorem outcome_apply [LawfulSlotTable table] (coherent : storage.Coherent)
    (effect : Effect) :
    effect.apply storage.machine =
      .ofExcept storage.machine ((storage.apply effect).map machine) := by
  cases effect with
  | idle => rfl
  | store register cell =>
    exact congrArg Outcome.done (machine_write coherent register cell).symm
  | compare difference =>
    exact congrArg Outcome.done (machine_setComparison coherent difference).symm
  | define label address =>
    exact congrArg Outcome.done (machine_changeLabels coherent fun labels =>
      labels.insert label address).symm
  | goto target =>
    rw [Effect.apply, Storage.apply, Machine.jump, Storage.jump]
    cases Counter.jump target <;> rfl

/-- An operation succeeds on a stored machine if it does so on the machine, and
fails for the same fault. -/
theorem outcome_execute [LawfulSlotTable table] (coherent : storage.Coherent)
    (mnemonic : Mnemonic) (arguments : List Argument) :
    mnemonic.execute arguments storage.machine =
      .ofExcept storage.machine
        ((storage.execute mnemonic arguments).map machine) := by
  rw [Storage.execute, effect_eq coherent, Mnemonic.execute]
  cases mnemonic.effect storage.machine arguments with
  | ok effect => exact outcome_apply coherent effect
  | error fault => rfl

theorem settle_execute [LawfulSlotTable table] (coherent : storage.Coherent)
    (mnemonic : Mnemonic) (arguments : List Argument) :
    (storage.settle (storage.execute mnemonic arguments)).machine =
      (mnemonic.execute arguments storage.machine).machine := by
  rw [outcome_execute coherent]
  cases storage.execute mnemonic arguments <;> rfl

/-- A command does to a stored machine what it does to the machine. -/
theorem machine_perform [LawfulSlotTable table] (coherent : storage.Coherent)
    (command : Command) :
    (storage.perform command).machine = storage.machine.perform command := by
  cases command with
  | provision register => exact machine_provision coherent register
  | queue instruction => rfl
  | jump target => exact settle_jump storage target
  | advance => rfl
  | write name cell => exact machine_write coherent name cell
  | compare difference => exact machine_setComparison coherent difference
  | changeLabels change => exact machine_changeLabels coherent change
  | execute mnemonic arguments =>
    exact settle_execute coherent mnemonic arguments

theorem Coherent.atCounter (coherent : storage.Coherent) (counter : Counter) :
    { storage with counter }.Coherent :=
  ⟨coherent.counted, coherent.leads, coherent.reached, coherent.distinct⟩

theorem Coherent.queue (coherent : storage.Coherent)
    (instruction : Instruction) : (storage.queue instruction).1.Coherent where
  counted := by simp [Storage.queue, coherent.counted]
  leads := coherent.leads
  reached := coherent.reached
  distinct := coherent.distinct

theorem Coherent.jump (coherent : storage.Coherent) (target : Word) :
    (storage.settle (storage.jump target)).Coherent := by
  rw [Storage.jump]
  cases Counter.jump target with
  | ok counter => exact coherent.atCounter counter
  | error fault => exact coherent

theorem Coherent.apply [LawfulSlotTable table] (coherent : storage.Coherent)
    (effect : Effect) : (storage.settle (storage.apply effect)).Coherent := by
  cases effect with
  | idle => exact coherent
  | store register cell => exact coherent.write register cell
  | compare difference => exact coherent.setComparison difference
  | define label address =>
    exact coherent.changeLabels fun labels => labels.insert label address
  | goto target => exact coherent.jump target

theorem Coherent.perform [LawfulSlotTable table] (coherent : storage.Coherent)
    (command : Command) : (storage.perform command).Coherent := by
  cases command with
  | provision register => exact coherent.provision register
  | queue instruction => exact coherent.queue instruction
  | jump target => exact coherent.jump target
  | advance => exact coherent.atCounter _
  | write name cell => exact coherent.write name cell
  | compare difference => exact coherent.setComparison difference
  | changeLabels change => exact coherent.changeLabels change
  | execute mnemonic arguments =>
    rw [Storage.perform, Storage.execute]
    cases storage.effect mnemonic arguments with
    | ok effect => exact coherent.apply effect
    | error fault => exact coherent

theorem Coherent.performAll [LawfulSlotTable table]
    (coherent : storage.Coherent) (commands : List Command) :
    (storage.performAll commands).Coherent := by
  induction commands generalizing storage with
  | nil => exact coherent
  | cons command rest induction => exact induction (coherent.perform command)

theorem machine_performAll [LawfulSlotTable table]
    (coherent : storage.Coherent) (commands : List Command) :
    (storage.performAll commands).machine =
      storage.machine.performAll commands := by
  induction commands generalizing storage with
  | nil => rfl
  | cons command rest induction =>
    have stored := induction (coherent.perform command)
    rw [machine_perform coherent] at stored
    exact stored

theorem coherent_empty [LawfulSlotTable table] :
    (empty : Storage table).Coherent := by
  refine coherent_of_slots rfl ?_ List.nodup_nil
  intro name
  exact LawfulSlotTable.slot?_empty name

theorem Coherent.provisionAll [LawfulSlotTable table]
    (coherent : storage.Coherent) (registers : List Register) :
    (storage.provisionAll registers).Coherent ∧
      (storage.provisionAll registers).machine =
        { storage.machine with
          registers := storage.machine.registers.provisionAll registers } := by
  induction registers generalizing storage with
  | nil => exact ⟨coherent, rfl⟩
  | cons register rest induction =>
    have provisioned := induction (coherent.provision register)
    rw [machine_provision coherent] at provisioned
    exact provisioned

theorem coherent_ofRegisters [LawfulSlotTable table] (names : List Name)
    (provisioned : List Register) :
    (ofRegisters names provisioned : Storage table).Coherent :=
  (coherent_empty.provisionAll _).1

theorem machine_ofRegisters [LawfulSlotTable table] (names : List Name)
    (provisioned : List Register) :
    (ofRegisters names provisioned : Storage table).machine =
      .ofRegisters names provisioned :=
  (coherent_empty.provisionAll _).2

/-- Where names stay in their places, slots do. -/
theorem Coherent.slot?_of_growsTo {before after : Storage table}
    (coherentBefore : before.Coherent) (coherentAfter : after.Coherent)
    (grows : before.machine.GrowsTo after.machine)
    (isSlot : before.slot? name = some slot) :
    after.slot? name = some slot := by
  rw [coherentBefore.slot?_eq, RegisterBank.slot?_eq_some_iff
    (distinct_machine coherentBefore.distinct)] at isSlot
  rw [coherentAfter.slot?_eq, RegisterBank.slot?_eq_some_iff
    (distinct_machine coherentAfter.distinct)]
  obtain ⟨added, appended⟩ := grows.names
  have inside := (List.getElem?_eq_some_iff.1 isSlot).1
  rw [← appended, List.getElem?_append_left inside]
  exact isSlot

/-- A stored machine is coherent after any commands and does what the machine
does.  It starts with the first register of each name, and later commands leave
registers in their slots and instructions at their addresses. -/
theorem storage_stays_coherent [LawfulSlotTable table] (names : List Name)
    (provisioned : List Register) (earlier later : List Command)
    (before after : Storage table)
    (reached : before = (ofRegisters names provisioned).performAll earlier)
    (goesOn : after = before.performAll later) :
    (ofRegisters names provisioned : Storage table).registers.toList =
        Register.firstOfEachName (names.map .zero ++ provisioned) ∧
      before.Coherent ∧
      before.machine =
        (Machine.ofRegisters names provisioned).performAll earlier ∧
      (∀ name slot, before.slot? name = some slot →
        after.slot? name = some slot) ∧
      before.names <+: after.names ∧
      before.instructions.toList <+: after.instructions.toList := by
  have coherentFresh : (ofRegisters names provisioned : Storage table).Coherent :=
    coherent_ofRegisters names provisioned
  have fresh : (ofRegisters names provisioned : Storage table).machine =
      .ofRegisters names provisioned := machine_ofRegisters names provisioned
  have coherentBefore : before.Coherent := by
    rw [reached]
    exact coherentFresh.performAll earlier
  have coherentAfter : after.Coherent := by
    rw [goesOn]
    exact coherentBefore.performAll later
  have grows : before.machine.GrowsTo after.machine := by
    rw [goesOn, machine_performAll coherentBefore]
    exact Machine.growsTo_performAll _ later
  refine ⟨?_, coherentBefore, ?_, ?_, grows.names, grows.instructions⟩
  · have stored := congrArg (fun machine => machine.registers.toList) fresh
    exact stored.trans (RegisterBank.toList_provisionAll_empty _)
  · rw [reached, machine_performAll coherentFresh, fresh]
  · intro name slot isSlot
    exact coherentBefore.slot?_of_growsTo coherentAfter grows isSlot

/-- Commands that bind both registers of the machine itself, among others. -/
def bindsOnTheWay : List Command :=
  [.execute .cmp [.register "ax", .literal 1],
    .queue ⟨.ofMnemonic .inc, [.register "ax"]⟩,
    .execute .label [.label "top"], .jump (-5)]

/-- Commands that ask for a bound register again and spoil the label table. -/
def bindsAgain : List Command :=
  [.provision ⟨"bool", .number 9⟩, .write "labels" (.label "top"),
    .changeLabels fun labels => labels.insert "end" 7, .provision (.zero "cx")]

theorem bindsOnTheWay_stays_coherent :
    ∃ before after : Storage PairTable,
      before = (ofRegisters ["ax", "ax"] [⟨"bx", .number 5⟩, .zero "ax"] :
        Storage PairTable).performAll bindsOnTheWay ∧
      after = before.performAll bindsAgain ∧
      before.Coherent ∧ before.assembled = 1 ∧
      before.names = ["ax", "bx", "bool", "labels"] ∧
      after.slot? "labels" = some 3 ∧ after.slot? "cx" = some 4 := by
  obtain ⟨_, coherent, _, slots, _, _⟩ := storage_stays_coherent ["ax", "ax"]
    [⟨"bx", .number 5⟩, .zero "ax"] bindsOnTheWay bindsAgain
    (_ : Storage PairTable) _ rfl rfl
  refine ⟨_, _, rfl, rfl, coherent, ?_, ?_, ?_, ?_⟩
  · decide
  · decide
  · exact slots "labels" 3 (by decide)
  · decide

end Storage

end RegisterMachine

import Mathlib.Data.List.Nodup
import RegisterMachine.Proofs.OperationRules

/-!
# Relabelling

A relabelling replaces every label by another name and touches nothing else: not
the names of operations, and not those of registers, even where a label has the
same name.  All that an operation reads and does commutes with an injective
relabelling.  Injectivity serves one purpose: labels that differ keep their own
entries in the label table.
-/

namespace RegisterMachine

namespace LabelTable

theorem lookup_eq_some_iff_mem {entries : List (Name × Word)} {label : Name}
    {address : Word} (distinct : (entries.map Prod.fst).Nodup) :
    entries.lookup label = some address ↔ (label, address) ∈ entries := by
  induction entries with
  | nil => simp
  | cons head rest induction =>
    obtain ⟨other, recorded⟩ := head
    obtain ⟨absent, restDistinct⟩ := List.nodup_cons.1 distinct
    rw [lookup_cons_eq, List.mem_cons, Prod.mk.injEq]
    by_cases same : label = other
    · subst same
      have notInRest : (label, address) ∉ rest := fun inRest =>
        absent (List.mem_map.2 ⟨_, inRest, rfl⟩)
      simp [notInRest, eq_comm]
    · simp [same, induction restDistinct]

/-- Of several entries for a label the last one counts. -/
theorem get?_ofEntries (entries : List (Name × Word)) (label : Name) :
    (ofEntries entries).get? label = entries.reverse.lookup label := by
  induction entries using List.reverseRecOn with
  | nil => rfl
  | append_singleton entries entry induction =>
    obtain ⟨other, recorded⟩ := entry
    rw [ofEntries, List.foldl_append, List.foldl_cons, List.foldl_nil,
      get?_insert, List.reverse_concat, lookup_cons_eq, ← induction, ofEntries]

theorem get?_ofEntries_eq_some_iff {entries : List (Name × Word)} {label : Name}
    {address : Word} (distinct : (entries.map Prod.fst).Nodup) :
    (ofEntries entries).get? label = some address ↔
      (label, address) ∈ entries := by
  have reversed : (entries.reverse.map Prod.fst).Nodup := by
    rw [List.map_reverse]
    exact List.nodup_reverse.2 distinct
  rw [get?_ofEntries, lookup_eq_some_iff_mem reversed, List.mem_reverse]

theorem nodup_labels (table : LabelTable) :
    (table.bindings.map Prod.fst).Nodup := by
  refine List.pairwise_map.2 (table.sorted.imp fun before same => ?_)
  rw [same] at before
  exact String.lt_irrefl _ before

theorem get?_eq_some_iff_mem {table : LabelTable} {label : Name}
    {address : Word} :
    table.get? label = some address ↔ (label, address) ∈ table.bindings :=
  lookup_eq_some_iff_mem table.nodup_labels

end LabelTable

variable (newName : Name → Name)

namespace Argument

def relabel : Argument → Argument
  | literal value => literal value
  | register name => register name
  | label name => label (newName name)

@[simp]
theorem registerName?_relabel (argument : Argument) :
    (argument.relabel newName).registerName? = argument.registerName? := by
  cases argument <;> rfl

end Argument

/-- The table with the addresses of all labels under their new names. -/
def LabelTable.relabel (table : LabelTable) : LabelTable :=
  .ofEntries (table.bindings.map fun binding =>
    (newName binding.1, binding.2))

namespace Cell

def relabel : Cell → Cell
  | number value => number value
  | register name => register name
  | label name => label (newName name)
  | labels table => labels (table.relabel newName)

@[simp]
theorem asNumber?_relabel (cell : Cell) :
    (cell.relabel newName).asNumber? = cell.asNumber? := by
  cases cell <;> rfl

@[simp]
theorem asLabels?_relabel (cell : Cell) :
    (cell.relabel newName).asLabels? =
      cell.asLabels?.map (.relabel newName) := by
  cases cell <;> rfl

end Cell

theorem Argument.toCell_relabel (argument : Argument) :
    (argument.relabel newName).toCell = argument.toCell.relabel newName := by
  cases argument <;> rfl

def Register.relabel (register : Register) : Register :=
  ⟨register.name, register.cell.relabel newName⟩

def RegisterBank.relabel (bank : RegisterBank) : RegisterBank :=
  ⟨bank.toList.map (.relabel newName)⟩

def Instruction.relabel (instruction : Instruction) : Instruction :=
  ⟨instruction.operation, instruction.arguments.map (.relabel newName)⟩

def Machine.relabel (machine : Machine) : Machine where
  instructions := machine.instructions.map (.relabel newName)
  counter := machine.counter
  registers := machine.registers.relabel newName

namespace Fault

/-- The fault with the label renamed that it carries, alone or in an argument
or a cell. -/
def relabel : Fault → Fault
  | undefinedLabel label => undefinedLabel (newName label)
  | expectedRegister operation found =>
    expectedRegister operation (found.relabel newName)
  | expectedLabel operation found =>
    expectedLabel operation (found.relabel newName)
  | notANumber register found =>
    notANumber register (found.relabel newName)
  | notNumeric found => notNumeric (found.relabel newName)
  | notAnAddress found => notAnAddress (found.relabel newName)
  | unknownName name => unknownName name
  | notARegister name => notARegister name
  | wrongArity operation expected given =>
    wrongArity operation expected given
  | invalidAddress target => invalidAddress target
  | nameCollision name => nameCollision name

end Fault

/-- An answer with the labels renamed in its fault, or `change` made to its
result. -/
def relabelAnswer {α β : Type} (change : α → β) :
    Except Fault α → Except Fault β
  | .ok result => .ok (change result)
  | .error fault => .error (fault.relabel newName)

theorem relabelAnswer_bind {α β γ δ : Type} {change : α → β}
    {changeNext : γ → δ} {next : α → Except Fault γ}
    {otherNext : β → Except Fault δ}
    (follows : ∀ result, otherNext (change result) =
      relabelAnswer newName changeNext (next result))
    (attempted : Except Fault α) :
    relabelAnswer newName change attempted >>= otherNext =
      relabelAnswer newName changeNext (attempted >>= next) := by
  cases attempted with
  | ok result => exact follows result
  | error fault => rfl

def Effect.relabel : Effect → Effect
  | idle => idle
  | store register cell => store register (cell.relabel newName)
  | compare difference => compare difference
  | define label address => define (newName label) address
  | goto target => goto target

def Outcome.relabel : Outcome → Outcome
  | done machine => done (machine.relabel newName)
  | failed fault machine =>
    failed (fault.relabel newName) (machine.relabel newName)

section Tables

variable {newName : Name → Name} (injective : Function.Injective newName)
include injective

namespace LabelTable

theorem get?_relabel_eq_some_iff {table : LabelTable} {name : Name}
    {address : Word} :
    (table.relabel newName).get? name = some address ↔
      ∃ label, newName label = name ∧ table.get? label = some address := by
  have distinct : ((table.bindings.map fun binding =>
      (newName binding.1, binding.2)).map Prod.fst).Nodup := by
    have renamed := table.nodup_labels.map injective
    rwa [List.map_map] at renamed ⊢
  rw [relabel, get?_ofEntries_eq_some_iff distinct]
  simp only [get?_eq_some_iff_mem, List.mem_map, Prod.exists, Prod.mk.injEq]
  constructor
  · rintro ⟨label, _, isBinding, renamed, rfl⟩
    exact ⟨label, renamed, isBinding⟩
  · rintro ⟨label, renamed, isBinding⟩
    exact ⟨label, address, isBinding, renamed, rfl⟩

theorem get?_relabel (table : LabelTable) (label : Name) :
    (table.relabel newName).get? (newName label) = table.get? label := by
  ext address
  rw [get?_relabel_eq_some_iff injective]
  constructor
  · rintro ⟨other, sameName, recorded⟩
    exact injective sameName ▸ recorded
  · intro recorded
    exact ⟨label, rfl, recorded⟩

theorem relabel_insert (table : LabelTable) (label : Name) (address : Word) :
    (table.insert label address).relabel newName =
      (table.relabel newName).insert (newName label) address := by
  refine ext_get? fun name => ?_
  ext recorded
  rw [get?_insert]
  by_cases isLabel : name = newName label
  · subst isLabel
    simp [get?_relabel injective]
  · rw [if_neg isLabel]
    simp only [get?_relabel_eq_some_iff injective, get?_insert]
    refine exists_congr fun other => and_congr_right fun renamed => ?_
    have differs : other ≠ label := by
      rintro rfl
      exact isLabel renamed.symm
    rw [if_neg differs]

end LabelTable

end Tables

theorem Register.number_relabel (register : Register) :
    (register.relabel newName).number =
      relabelAnswer newName id register.number := by
  obtain ⟨name, cell⟩ := register
  cases cell <;> rfl

namespace RegisterBank

theorem find?_relabel (bank : RegisterBank) (name : Name) :
    (bank.relabel newName).find? name =
      (bank.find? name).map (.relabel newName) :=
  List.find?_map

@[simp]
theorem read?_relabel (bank : RegisterBank) (name : Name) :
    (bank.relabel newName).read? name =
      (bank.read? name).map (.relabel newName) := by
  rw [read?, find?_relabel, read?, Option.map_map, Option.map_map]
  rfl

theorem relabel_write (bank : RegisterBank) (name : Name) (cell : Cell) :
    (bank.write name cell).relabel newName =
      (bank.relabel newName).write name (cell.relabel newName) := by
  simp only [relabel, write, List.map_map, RegisterBank.mk.injEq]
  refine List.map_congr_left fun register _ => ?_
  by_cases same : register.name = name <;> simp [Register.relabel, same]

theorem relabel_provision (bank : RegisterBank) (register : Register) :
    (bank.provision register).relabel newName =
      (bank.relabel newName).provision (register.relabel newName) := by
  have bound : ((bank.relabel newName).find? register.name).isSome =
      (bank.find? register.name).isSome := by
    rw [find?_relabel, Option.isSome_map]
  have sameName : (register.relabel newName).name = register.name := rfl
  rw [provision, provision, sameName, bound]
  split
  next => rfl
  next => simp [relabel]

theorem register_relabel (bank : RegisterBank) (name : Name) :
    (bank.relabel newName).register name =
      relabelAnswer newName (.relabel newName) (bank.register name) := by
  rw [register, find?_relabel, register]
  cases bank.find? name <;> rfl

theorem amount_relabel (bank : RegisterBank) (amount : Option Argument) :
    (bank.relabel newName).amount (amount.map (.relabel newName)) =
      relabelAnswer newName id (bank.amount amount) := by
  rcases amount with _ | argument
  · rfl
  cases argument with
  | literal value => rfl
  | label name => rfl
  | register name =>
    calc
      _ = (bank.relabel newName).register name >>= Register.number := rfl
      _ = relabelAnswer newName (.relabel newName) (bank.register name) >>=
          Register.number := by rw [register_relabel]
      _ = _ := relabelAnswer_bind newName (Register.number_relabel newName) _

theorem destination_relabel (bank : RegisterBank) (mnemonic : Mnemonic)
    (argument : Argument) :
    (bank.relabel newName).destination mnemonic (argument.relabel newName) =
      relabelAnswer newName (.relabel newName)
        (bank.destination mnemonic argument) := by
  cases argument with
  | register name => exact register_relabel newName bank name
  | literal value => rfl
  | label name => rfl

/-- Calculations read numbers only, which have no labels. -/
theorem computed_relabel (bank : RegisterBank) (mnemonic : Mnemonic)
    (compute : Word → Word → Word) (destination : Argument)
    (amount : Option Argument) :
    (bank.relabel newName).computed mnemonic compute
        (destination.relabel newName) (amount.map (.relabel newName)) =
      relabelAnswer newName id
        (bank.computed mnemonic compute destination amount) := by
  rw [computed, amount_relabel, computed]
  refine relabelAnswer_bind newName (fun operand => ?_) _
  rw [destination_relabel]
  refine relabelAnswer_bind newName (fun register => ?_) _
  rw [Register.number_relabel]
  refine relabelAnswer_bind newName (fun _ => ?_) _
  rfl

end RegisterBank

namespace Machine

@[simp]
theorem queued_relabel (machine : Machine) :
    (machine.relabel newName).queued = machine.queued :=
  Array.size_map

@[simp]
theorem nextAddress_relabel (machine : Machine) :
    (machine.relabel newName).nextAddress = machine.nextAddress := by
  rw [nextAddress, queued_relabel, nextAddress]

@[simp]
theorem read?_relabel (machine : Machine) (name : Name) :
    (machine.relabel newName).read? name =
      (machine.read? name).map (.relabel newName) :=
  RegisterBank.read?_relabel newName machine.registers name

@[simp]
theorem comparison_relabel (machine : Machine) :
    (machine.relabel newName).comparison = machine.comparison := by
  rw [comparison, read?_relabel, comparison]
  cases machine.read? comparisonRegister <;> simp

theorem labels?_relabel (machine : Machine) :
    (machine.relabel newName).labels? =
      machine.labels?.map (.relabel newName) := by
  rw [labels?, read?_relabel, labels?]
  cases machine.read? labelRegister <;> simp

@[simp]
theorem labelTable_relabel (machine : Machine) :
    (machine.relabel newName).labelTable =
      machine.labelTable.relabel newName := by
  rw [labelTable, labels?_relabel, labelTable]
  cases machine.labels? <;> rfl

theorem fetch?_relabel (machine : Machine) :
    (machine.relabel newName).fetch? =
      machine.fetch?.map (.relabel newName) := by
  have sameCounter : (machine.relabel newName).counter = machine.counter :=
    rfl
  rw [fetch?, sameCounter, queued_relabel, fetch?, Option.map_bind]
  congr 1
  funext address
  exact Array.getElem?_map

theorem relabel_write (machine : Machine) (name : Name) (cell : Cell) :
    (machine.write name cell).relabel newName =
      (machine.relabel newName).write name (cell.relabel newName) := by
  rw [write, relabel, RegisterBank.relabel_write]
  rfl

theorem relabel_assign (machine : Machine) (name : Name) (cell : Cell) :
    (machine.assign name cell).relabel newName =
      (machine.relabel newName).assign name (cell.relabel newName) := by
  rw [assign, relabel_write, assign, provision, relabel,
    RegisterBank.relabel_provision]
  rfl

theorem relabel_setComparison (machine : Machine) (difference : Word) :
    (machine.setComparison difference).relabel newName =
      (machine.relabel newName).setComparison difference :=
  relabel_assign newName machine comparisonRegister (.number difference)

theorem relabel_queue (machine : Machine) (instruction : Instruction) :
    (machine.queue instruction).relabel newName =
      (machine.relabel newName).queue (instruction.relabel newName) := by
  rw [queue, relabel, Array.map_push]
  rfl

end Machine

namespace Mnemonic

theorem arithmeticEffect_relabel (bank : RegisterBank) (mnemonic : Mnemonic)
    (compute : Word → Word → Word) (destination : Argument)
    (amount : Option Argument) :
    arithmeticEffect (bank.relabel newName) mnemonic compute
        (destination.relabel newName) (amount.map (.relabel newName)) =
      relabelAnswer newName (.relabel newName)
        (arithmeticEffect bank mnemonic compute destination amount) := by
  rw [arithmeticEffect, RegisterBank.computed_relabel, arithmeticEffect]
  refine relabelAnswer_bind newName (fun _ => ?_) _
  rfl

theorem compareEffect_relabel (bank : RegisterBank) (destination : Argument)
    (amount : Option Argument) :
    compareEffect (bank.relabel newName) (destination.relabel newName)
        (amount.map (.relabel newName)) =
      relabelAnswer newName (.relabel newName)
        (compareEffect bank destination amount) := by
  rw [compareEffect, RegisterBank.computed_relabel, compareEffect]
  refine relabelAnswer_bind newName (fun _ => ?_) _
  rfl

theorem moveEffect_relabel (bank : RegisterBank)
    (destination source : Argument) :
    moveEffect (bank.relabel newName) (destination.relabel newName)
        (source.relabel newName) =
      relabelAnswer newName (.relabel newName)
        (moveEffect bank destination source) := by
  rw [moveEffect, RegisterBank.destination_relabel, Argument.toCell_relabel,
    moveEffect]
  refine relabelAnswer_bind newName (fun _ => ?_) _
  rfl

theorem labelEffect_relabel (machine : Machine) (argument : Argument) :
    labelEffect (machine.relabel newName) (argument.relabel newName) =
      relabelAnswer newName (.relabel newName)
        (labelEffect machine argument) := by
  cases argument with
  | label name =>
    change labelEffect (machine.relabel newName) (.label (newName name)) = _
    rw [labelEffect, Machine.nextAddress_relabel]
    rfl
  | literal value => rfl
  | register name => rfl

end Mnemonic

variable {newName : Name → Name} (injective : Function.Injective newName)
include injective

namespace Machine

theorem relabel_defineLabel (machine : Machine) (label : Name)
    (address : Word) :
    (machine.defineLabel label address).relabel newName =
      (machine.relabel newName).defineLabel (newName label) address := by
  rw [defineLabel, setLabels, relabel_assign, defineLabel, labelTable_relabel,
    ← LabelTable.relabel_insert injective]
  rfl

theorem target_relabel (machine : Machine) (argument : Argument) :
    (machine.relabel newName).target (argument.relabel newName) =
      relabelAnswer newName id (machine.target argument) := by
  cases argument with
  | literal address => rfl
  | register name => rfl
  | label name =>
    have renamed : (Argument.label name).relabel newName =
        .label (newName name) := rfl
    rw [renamed, target_label, labelTable_relabel,
      LabelTable.get?_relabel injective, target_label]
    cases machine.labelTable.get? name <;> rfl

end Machine

namespace Mnemonic

/-- The effect of a basic operation on a relabelled machine is the relabelled
effect, and its fault the relabelled fault. -/
theorem effect_relabel (mnemonic : Mnemonic) (machine : Machine)
    (arguments : List Argument) :
    mnemonic.effect (machine.relabel newName)
        (arguments.map (.relabel newName)) =
      relabelAnswer newName (.relabel newName)
        (mnemonic.effect machine arguments) := by
  cases accepted : mnemonic.arity.accepts arguments.length with
  | false =>
    have refused : mnemonic.arity.accepts
        (arguments.map (Argument.relabel newName)).length = false := by
      rwa [List.length_map]
    rw [effect_of_not_accepts _ refused, effect_of_not_accepts _ accepted,
      List.length_map]
    rfl
  | true =>
    have amounts (destination : Argument) (amount : Option Argument) :
        (destination :: amount.toList).map (Argument.relabel newName) =
          destination.relabel newName ::
            (amount.map (Argument.relabel newName)).toList := by
      cases amount <;> rfl
    cases shape_of_accepts accepted with
    | mov destination source =>
      exact moveEffect_relabel newName machine.registers destination source
    | inc destination amount =>
      rw [amounts, effect_inc, effect_inc]
      exact arithmeticEffect_relabel newName machine.registers inc (· + ·)
        destination amount
    | dec destination amount =>
      rw [amounts, effect_dec, effect_dec]
      exact arithmeticEffect_relabel newName machine.registers dec (· - ·)
        destination amount
    | cmp destination amount =>
      rw [amounts, effect_cmp, effect_cmp]
      exact compareEffect_relabel newName machine.registers destination amount
    | label argument => exact labelEffect_relabel newName machine argument
    | jump condition argument =>
      change jumpEffect (machine.relabel newName) condition
          (argument.relabel newName) =
        relabelAnswer newName _ (jumpEffect machine condition argument)
      rw [jumpEffect, Machine.comparison_relabel,
        Machine.target_relabel injective, jumpEffect]
      split
      next => cases machine.target argument <;> rfl
      next => rfl

end Mnemonic

namespace Effect

theorem apply_relabel (effect : Effect) (machine : Machine) :
    (effect.relabel newName).apply (machine.relabel newName) =
      (effect.apply machine).relabel newName := by
  cases effect with
  | idle => rfl
  | store register cell =>
    exact congrArg Outcome.done
      (Machine.relabel_write newName machine register cell).symm
  | compare difference =>
    exact congrArg Outcome.done
      (Machine.relabel_setComparison newName machine difference).symm
  | define label address =>
    exact congrArg Outcome.done
      (Machine.relabel_defineLabel injective machine label address).symm
  | goto target =>
    change Outcome.ofExcept _ ((machine.relabel newName).jump target) =
      (Outcome.ofExcept machine (machine.jump target)).relabel newName
    rw [Machine.jump, Counter.jump_eq, Machine.jump, Counter.jump_eq]
    split <;> rfl

theorem carryOut_relabel (answer : Except Fault Effect) (machine : Machine) :
    carryOut (relabelAnswer newName (.relabel newName) answer)
        (machine.relabel newName) =
      (carryOut answer machine).relabel newName := by
  cases answer with
  | ok effect => exact apply_relabel injective effect machine
  | error fault => rfl

end Effect

namespace Instruction

theorem effect_relabel (instruction : Instruction) (machine : Machine) :
    (instruction.relabel newName).effect (machine.relabel newName) =
      relabelAnswer newName (.relabel newName)
        (instruction.effect machine) := by
  obtain ⟨operation, arguments⟩ := instruction
  change operation.effect (machine.relabel newName)
      (arguments.map (.relabel newName)) =
    relabelAnswer newName _ (operation.effect machine arguments)
  rw [Operation.effect, Operation.effect]
  cases operation.performs with
  | some mnemonic => exact mnemonic.effect_relabel injective machine arguments
  | none =>
    simp only [List.length_map, Operation.checkArity]
    split <;> rfl

theorem execute_relabel (instruction : Instruction) (machine : Machine) :
    (instruction.relabel newName).execute (machine.relabel newName) =
      (instruction.execute machine).relabel newName := by
  rw [execute, effect_relabel injective, Effect.carryOut_relabel injective,
    execute]

end Instruction

end RegisterMachine

import RegisterMachine.Assembly
import RegisterMachine.Proofs.Program

/-!
# Dialects with the standard operations

A dialect that declares the standard operations beside registers of its own
resolves a name in one of three ways: as a register, as a basic operation, or
not at all.  Its programs start on a machine that binds the user registers, then
the comparison register and then the label register.
-/

namespace RegisterMachine

namespace RegisterBank

theorem provision_of_mem {bank : RegisterBank} {register : Register}
    (bound : register.name ∈ bank.names) : bank.provision register = bank := by
  simp [provision, find?_isSome_iff.2 bound]

theorem provision_of_not_mem {bank : RegisterBank} {register : Register}
    (unbound : register.name ∉ bank.names) :
    bank.provision register = ⟨bank.toList ++ [register]⟩ := by
  simp [provision, find?_eq_none_iff.2 unbound]

theorem write_of_not_mem {bank : RegisterBank} {name : Name} (cell : Cell)
    (unbound : name ∉ bank.names) : bank.write name cell = bank := by
  have kept : bank.toList.map (fun register =>
      if register.name = name then ⟨register.name, cell⟩ else register) =
      bank.toList := by
    conv_rhs => rw [← List.map_id bank.toList]
    refine List.map_congr_left fun register isBound => ?_
    exact if_neg fun same => unbound (List.mem_map.2 ⟨register, isBound, same⟩)
  rw [write, kept]

theorem write_append (first second : List Register) (name : Name)
    (cell : Cell) :
    (⟨first ++ second⟩ : RegisterBank).write name cell =
      ⟨((⟨first⟩ : RegisterBank).write name cell).toList ++
        ((⟨second⟩ : RegisterBank).write name cell).toList⟩ := by
  simp [write]

theorem find?_append (first second : List Register) (name : Name) :
    (⟨first ++ second⟩ : RegisterBank).find? name =
      ((⟨first⟩ : RegisterBank).find? name).or
        ((⟨second⟩ : RegisterBank).find? name) :=
  List.find?_append

theorem provisionAll_append (bank : RegisterBank)
    (first second : List Register) :
    bank.provisionAll (first ++ second) =
      (bank.provisionAll first).provisionAll second :=
  List.foldl_append

theorem find?_provisionAll (bank : RegisterBank) (registers : List Register)
    (name : Name) :
    (bank.provisionAll registers).find? name =
      (bank.find? name).or ((⟨registers⟩ : RegisterBank).find? name) := by
  induction registers generalizing bank with
  | nil => exact (Option.or_none).symm
  | cons register rest induction =>
    have split : (⟨register :: rest⟩ : RegisterBank).find? name =
        (if register.name = name then some register else none).or
          ((⟨rest⟩ : RegisterBank).find? name) := by
      by_cases same : register.name = name <;> simp [find?, same]
    rw [split, ← Option.or_assoc, ← find?_provision]
    exact induction (bank.provision register)

/-- Registers with new and distinct names are all bound, in order. -/
theorem provisionAll_of_fresh {bank : RegisterBank} {fresh : List Register}
    (distinct : (bank.names ++ fresh.map Register.name).Nodup) :
    bank.provisionAll fresh = ⟨bank.toList ++ fresh⟩ := by
  induction fresh generalizing bank with
  | nil => simp [provisionAll]
  | cons register rest induction =>
    have unbound : register.name ∉ bank.names := by
      intro bound
      have apart := (List.nodup_append.1 distinct).2.2 _ bound
        register.name (by simp)
      exact apart rfl
    have restDistinct :
        ((⟨bank.toList ++ [register]⟩ : RegisterBank).names ++
          rest.map Register.name).Nodup := by
      simpa [names] using distinct
    rw [provisionAll, List.foldl_cons, provision_of_not_mem unbound]
    simpa [provisionAll] using induction restDistinct

theorem provisionAll_of_bound {bank : RegisterBank} {registers : List Register}
    (bound : ∀ register ∈ registers, register.name ∈ bank.names) :
    bank.provisionAll registers = bank := by
  induction registers with
  | nil => rfl
  | cons register rest induction =>
    rw [provisionAll, List.foldl_cons,
      provision_of_mem (bound register List.mem_cons_self)]
    exact induction fun other isLater =>
      bound other (List.mem_cons_of_mem _ isLater)

/-- The registers of a program before it runs, with the label table that its
assembly left. -/
def initialBank (registers : List Name) (table : LabelTable) : RegisterBank :=
  ⟨registers.map .zero ++
    [.zero comparisonRegister, ⟨labelRegister, .labels table⟩]⟩

theorem names_initialBank (registers : List Name) (table : LabelTable) :
    (initialBank registers table).names =
      registers ++ [comparisonRegister, labelRegister] := by
  simp [initialBank, names, Register.zero, Function.comp_def]

theorem names_zero (registers : List Name) :
    (⟨registers.map .zero⟩ : RegisterBank).names = registers := by
  simp [names, Register.zero, Function.comp_def]

theorem read?_zero {registers : List Name} {name : Name}
    (isRegister : name ∈ registers) :
    (⟨registers.map .zero⟩ : RegisterBank).read? name = some (.number 0) := by
  have bound : ((⟨registers.map .zero⟩ : RegisterBank).find? name).isSome := by
    rw [find?_isSome_iff, names_zero]
    exact isRegister
  obtain ⟨register, found⟩ := Option.isSome_iff_exists.1 bound
  have isZeroed : register ∈ registers.map Register.zero :=
    List.mem_of_find?_eq_some found
  obtain ⟨zeroed, _, rfl⟩ := List.mem_map.1 isZeroed
  rw [read?, found]
  rfl

theorem read?_zero_append {registers : List Name} {name : Name}
    (isRegister : name ∈ registers) (rest : List Register) :
    (⟨registers.map .zero ++ rest⟩ : RegisterBank).read? name =
      some (.number 0) := by
  have zeroed := read?_zero isRegister
  rw [read?, Option.map_eq_some_iff] at zeroed
  obtain ⟨register, found, holds⟩ := zeroed
  rw [read?, find?_append, found, Option.some_or, Option.map_some, holds]

theorem read?_initialBank_register {registers : List Name} {table : LabelTable}
    {name : Name} (isRegister : name ∈ registers) :
    (initialBank registers table).read? name = some (.number 0) :=
  read?_zero_append isRegister _

theorem read?_initialBank_labels {registers : List Name} {table : LabelTable}
    (isFree : labelRegister ∉ registers) :
    (initialBank registers table).read? labelRegister =
      some (.labels table) := by
  have unbound : (⟨registers.map .zero⟩ : RegisterBank).find? labelRegister =
      none := find?_eq_none_iff.2 (by rwa [names_zero])
  rw [read?, initialBank, find?_append, unbound]
  rfl

theorem read?_initialBank_comparison {registers : List Name}
    {table : LabelTable} (isFree : comparisonRegister ∉ registers) :
    (initialBank registers table).read? comparisonRegister =
      some (.number 0) := by
  have unbound : (⟨registers.map .zero⟩ : RegisterBank).find?
      comparisonRegister = none := find?_eq_none_iff.2 (by rwa [names_zero])
  rw [read?, initialBank, find?_append, unbound]
  rfl

theorem write_initialBank_labels {registers : List Name} {table : LabelTable}
    (isFree : labelRegister ∉ registers) (changed : LabelTable) :
    (initialBank registers table).write labelRegister (.labels changed) =
      initialBank registers changed := by
  rw [initialBank, write_append,
    write_of_not_mem _ (by rwa [names_zero])]
  rfl

end RegisterBank

namespace Operation

theorem standard_eq_map : standard = Mnemonic.all.map ofMnemonic := by
  simp [standard, math, jumps, Mnemonic.all]

end Operation

namespace Dialect

variable {dialect : Dialect} {registers : List Name} {name : Name}

/-- A declaration succeeds with the dialect that has these registers and
operations, or with none. -/
theorem declare_eq_ok_iff {operations : List Operation} :
    declare registers operations = .ok dialect ↔
      dialect.registers = registers ∧ dialect.operations = operations := by
  constructor
  · intro declared
    unfold declare at declared
    split at declared
    next => simp at declared
    next =>
      obtain rfl := Except.ok.inj declared
      exact ⟨rfl, rfl⟩
  · rintro ⟨rfl, rfl⟩
    have collisionFree :=
      Declaration.collision?_ofDialect_eq_none_iff.2
        ⟨dialect.distinct, dialect.apart⟩
    unfold declare
    split
    next collision found => simp [collisionFree] at found
    next => rfl

/-- The dialect performs the standard operations and no others. -/
def IsStandard (dialect : Dialect) : Prop :=
  dialect.operations = Operation.standard

theorem isStandard_of_declare
    (declared : declare registers Operation.standard = .ok dialect) :
    dialect.IsStandard :=
  (declare_eq_ok_iff.1 declared).2

theorem registers_of_declare {operations : List Operation}
    (declared : declare registers operations = .ok dialect) :
    dialect.registers = registers :=
  (declare_eq_ok_iff.1 declared).1

theorem isRegister_iff :
    dialect.isRegister name = true ↔ name ∈ dialect.registers := by
  simp [isRegister]

theorem operation?_eq (isStandard : dialect.IsStandard) (name : Name) :
    dialect.operation? name = (Mnemonic.named? name).map .ofMnemonic := by
  rw [operation?, isStandard, Operation.standard_eq_map, List.find?_map]
  rfl

/-- No register has the name of an operation. -/
theorem named?_eq_none_of_register (isStandard : dialect.IsStandard)
    (isRegister : name ∈ dialect.registers) : Mnemonic.named? name = none := by
  by_contra named
  obtain ⟨mnemonic, named⟩ := Option.ne_none_iff_exists'.1 named
  have apart := (List.nodup_append.1 dialect.distinct).2.2 name isRegister name
  refine apart (List.mem_flatMap.2 ⟨.ofMnemonic mnemonic, ?_, ?_⟩) rfl
  · rw [isStandard, Operation.standard_eq_map]
    exact List.mem_map_of_mem (Mnemonic.mem_all mnemonic)
  · exact Mnemonic.mem_names_of_named? named

/-- No user register has the name of a register that the standard operations
keep for themselves. -/
theorem not_mem_registers_of_provisioned (isStandard : dialect.IsStandard)
    (reserved : name = comparisonRegister ∨ name = labelRegister) :
    name ∉ dialect.registers := by
  have apart := dialect.apart (.ofMnemonic (.jump .always))
    (by rw [isStandard]; decide)
  rcases reserved with rfl | rfl
  · exact apart (.zero comparisonRegister) (by decide)
  · exact apart ⟨labelRegister, .labels .empty⟩ (by decide)

theorem comparisonRegister_not_mem (isStandard : dialect.IsStandard) :
    comparisonRegister ∉ dialect.registers :=
  not_mem_registers_of_provisioned isStandard (.inl rfl)

theorem labelRegister_not_mem (isStandard : dialect.IsStandard) :
    labelRegister ∉ dialect.registers :=
  not_mem_registers_of_provisioned isStandard (.inr rfl)

theorem entry?_of_register (isRegister : name ∈ dialect.registers) :
    dialect.entry? name = some .register := by
  unfold entry?
  rw [if_pos (isRegister_iff.2 isRegister)]

theorem entry?_of_not_register (isStandard : dialect.IsStandard)
    (notRegister : name ∉ dialect.registers) :
    dialect.entry? name =
      (Mnemonic.named? name).map fun mnemonic =>
        .operation (.ofMnemonic mnemonic) := by
  unfold entry?
  rw [if_neg fun isRegister => notRegister (isRegister_iff.1 isRegister),
    operation?_eq isStandard, Option.map_map]
  rfl

theorem nodup_reserved (isStandard : dialect.IsStandard) :
    (dialect.registers ++ [comparisonRegister, labelRegister]).Nodup := by
  refine List.nodup_append.2
    ⟨(List.nodup_append.1 dialect.distinct).1, by decide, ?_⟩
  rintro name isRegister other isReserved rfl
  exact not_mem_registers_of_provisioned isStandard (by simpa using isReserved)
    isRegister

/-- A program starts on zeroed registers and an empty label table. -/
theorem machine_eq (isStandard : dialect.IsStandard) :
    dialect.machine =
      ⟨#[], .start, .initialBank dialect.registers .empty⟩ := by
  have requested : dialect.requested =
      [.zero comparisonRegister, ⟨labelRegister, .labels .empty⟩] ++
        Operation.jumps.flatMap Operation.provisions := by
    rw [requested, isStandard]
    decide
  have first : RegisterBank.empty.provisionAll
      (dialect.registers.map .zero ++
        [.zero comparisonRegister, ⟨labelRegister, .labels .empty⟩]) =
      .initialBank dialect.registers .empty := by
    refine (RegisterBank.provisionAll_of_fresh ?_).trans (by
      simp [RegisterBank.empty, RegisterBank.initialBank])
    simpa [RegisterBank.empty, RegisterBank.names, Register.zero,
      Function.comp_def] using nodup_reserved isStandard
  rw [machine, Machine.ofRegisters, requested, ← List.append_assoc,
    RegisterBank.provisionAll_append, first, RegisterBank.provisionAll_of_bound]
  intro register provisioned
  have reserved : register.name = comparisonRegister ∨
      register.name = labelRegister := by
    revert register
    decide
  rw [RegisterBank.names_initialBank]
  simpa using .inr reserved

end Dialect

end RegisterMachine

import RegisterMachine.Proofs.StandardDialect

/-!
# The registers of the user

A program can name user registers only, so what its operations do to them can be
told from these registers alone.  This file restricts a bank to given names and
shows that operands which refer to those names are read alike in the whole bank
and in the restricted one.
-/

namespace RegisterMachine

theorem bind_eq_ok_iff {α β : Type} {attempted : Except Fault α}
    {next : α → Except Fault β} {result : β} :
    attempted >>= next = .ok result ↔
      ∃ value, attempted = .ok value ∧ next value = .ok result := by
  cases attempted <;> simp [bind, Except.bind]

theorem bind_eq_error_iff {α β : Type} {attempted : Except Fault α}
    {next : α → Except Fault β} {fault : Fault} :
    attempted >>= next = .error fault ↔
      attempted = .error fault ∨
        ∃ value, attempted = .ok value ∧ next value = .error fault := by
  cases attempted <;> simp [bind, Except.bind]

namespace RegisterBank

/-- The registers of a bank that have one of these names. -/
def restrict (bank : RegisterBank) (names : List Name) : RegisterBank :=
  ⟨bank.toList.filter fun register => register.name ∈ names⟩

variable {bank : RegisterBank} {names : List Name} {name : Name}

theorem find?_restrict (bank : RegisterBank) (wanted : name ∈ names) :
    (bank.restrict names).find? name = bank.find? name := by
  rw [find?, restrict, List.find?_filter, find?]
  congr 1
  funext register
  by_cases same : register.name = name
  · simp [same, wanted]
  · simp [same]

theorem restrict_write (bank : RegisterBank) (names : List Name) (name : Name)
    (cell : Cell) :
    (bank.write name cell).restrict names =
      (bank.restrict names).write name cell := by
  rw [write, restrict, List.filter_map, write, restrict]
  congr 2
  refine List.filter_congr fun register _ => ?_
  by_cases same : register.name = name <;> simp [same]

theorem restrict_write_of_not_mem (bank : RegisterBank) (cell : Cell)
    (unwanted : name ∉ names) :
    (bank.write name cell).restrict names = bank.restrict names := by
  rw [restrict_write, write_of_not_mem]
  intro isBound
  obtain ⟨register, isKept, rfl⟩ := List.mem_map.1 isBound
  exact unwanted (by simpa using (List.mem_filter.1 isKept).2)

theorem restrict_provision_of_not_mem (bank : RegisterBank)
    {register : Register} (unwanted : register.name ∉ names) :
    (bank.provision register).restrict names = bank.restrict names := by
  by_cases bound : register.name ∈ bank.names
  · rw [provision_of_mem bound]
  · rw [provision_of_not_mem bound]
    simp [restrict, unwanted]

/-- An assignment to a register of another name is not seen. -/
theorem restrict_assign_of_not_mem (machine : Machine) (cell : Cell)
    (unwanted : name ∉ names) :
    (machine.assign name cell).registers.restrict names =
      machine.registers.restrict names := by
  rw [Machine.assign, Machine.write, restrict_write_of_not_mem _ _ unwanted]
  exact restrict_provision_of_not_mem _ unwanted

theorem restrict_initialBank {registers : List Name} {table : LabelTable}
    (comparisonFree : comparisonRegister ∉ registers)
    (labelFree : labelRegister ∉ registers) :
    (initialBank registers table).restrict registers =
      ⟨registers.map .zero⟩ := by
  have kept : (registers.map Register.zero).filter
      (fun register => register.name ∈ registers) =
      registers.map Register.zero := by
    rw [List.filter_eq_self]
    intro register isZeroed
    obtain ⟨name, isRegister, rfl⟩ := List.mem_map.1 isZeroed
    exact decide_eq_true isRegister
  rw [restrict, initialBank, List.filter_append, kept]
  simp [Register.zero, comparisonFree, labelFree]

theorem find?_eq_map_read? (bank : RegisterBank) (name : Name) :
    bank.find? name = (bank.read? name).map fun cell => ⟨name, cell⟩ := by
  rw [read?, Option.map_map]
  cases found : bank.find? name with
  | none => rfl
  | some register =>
    obtain rfl := name_of_find? found
    rfl

theorem read?_restrict (bank : RegisterBank) (wanted : name ∈ names) :
    (bank.restrict names).read? name = bank.read? name := by
  rw [read?, find?_restrict bank wanted, read?]

section Congruence

variable {first second : RegisterBank}

theorem register_congr (same : first.read? name = second.read? name) :
    first.register name = second.register name := by
  rw [register, find?_eq_map_read?, same, ← find?_eq_map_read?, register]

theorem destination_congr (mnemonic : Mnemonic) {argument : Argument}
    (agree : ∀ name, .register name ∈ [argument] →
      first.read? name = second.read? name) :
    first.destination mnemonic argument =
      second.destination mnemonic argument := by
  cases argument with
  | register name => exact register_congr (agree name (by simp))
  | literal value => rfl
  | label name => rfl

theorem amount_congr {argument : Option Argument}
    (agree : ∀ name, .register name ∈ argument.toList →
      first.read? name = second.read? name) :
    first.amount argument = second.amount argument := by
  match argument with
  | some (.register name) =>
    rw [amount, register_congr (agree name (by simp)), amount]
  | none => rfl
  | some (.literal value) => rfl
  | some (.label name) => rfl

/-- The result of a calculation is determined by the registers that its operands
name. -/
theorem computed_congr (mnemonic : Mnemonic) (compute : Word → Word → Word)
    {destination : Argument} {amount : Option Argument}
    (agree : ∀ name, .register name ∈ destination :: amount.toList →
      first.read? name = second.read? name) :
    first.computed mnemonic compute destination amount =
      second.computed mnemonic compute destination amount := by
  have atDestination (name : Name)
      (isArgument : .register name ∈ [destination]) :
      first.read? name = second.read? name :=
    agree name (List.mem_cons.2 (.inl (List.mem_singleton.1 isArgument)))
  rw [computed, amount_congr fun name isArgument =>
    agree name (List.mem_cons_of_mem _ isArgument),
    destination_congr mnemonic atDestination, computed]

end Congruence

theorem destination_restrict (bank : RegisterBank) (mnemonic : Mnemonic)
    {argument : Argument}
    (covered : ∀ name, .register name ∈ [argument] → name ∈ names) :
    (bank.restrict names).destination mnemonic argument =
      bank.destination mnemonic argument :=
  destination_congr mnemonic fun name isArgument =>
    read?_restrict bank (covered name isArgument)

theorem computed_restrict (bank : RegisterBank) (mnemonic : Mnemonic)
    (compute : Word → Word → Word) {destination : Argument}
    {amount : Option Argument}
    (covered : ∀ name, .register name ∈ destination :: amount.toList →
      name ∈ names) :
    (bank.restrict names).computed mnemonic compute destination amount =
      bank.computed mnemonic compute destination amount :=
  computed_congr mnemonic compute fun name isArgument =>
    read?_restrict bank (covered name isArgument)

theorem destination_eq_ok {mnemonic : Mnemonic} {argument : Argument}
    {register : Register}
    (found : bank.destination mnemonic argument = .ok register) :
    argument = .register register.name := by
  cases argument with
  | register name =>
    rw [name_of_find? (register_eq_ok_iff.1 found)]
  | literal value => cases found
  | label name => cases found

theorem register_eq_ok_iff_read? {register : Register} :
    bank.register name = .ok register ↔
      register.name = name ∧ bank.read? name = some register.cell := by
  rw [register_eq_ok_iff, find?_eq_map_read?, Option.map_eq_some_iff]
  constructor
  · rintro ⟨cell, reads, rfl⟩
    exact ⟨rfl, reads⟩
  · rintro ⟨rfl, reads⟩
    exact ⟨register.cell, reads, rfl⟩

/-- A calculation works on the number in its destination, which has to be a
register, and on its amount. -/
theorem computed_eq_ok_iff {mnemonic : Mnemonic} {compute : Word → Word → Word}
    {destination : Argument} {amount : Option Argument} {result : Word} :
    bank.computed mnemonic compute destination amount = .ok (name, result) ↔
      ∃ current operand, destination = .register name ∧
        bank.read? name = some (.number current) ∧
        bank.amount amount = .ok operand ∧
        result = compute current operand := by
  constructor
  · intro worked
    obtain ⟨operand, operandRead, worked⟩ := bind_eq_ok_iff.1 worked
    obtain ⟨register, found, worked⟩ := bind_eq_ok_iff.1 worked
    obtain ⟨current, isNumber, worked⟩ := bind_eq_ok_iff.1 worked
    obtain ⟨rfl, rfl⟩ := Prod.mk.inj (Except.ok.inj worked)
    obtain rfl := destination_eq_ok found
    have reads := (register_eq_ok_iff_read?.1 found).2
    rw [Register.number_eq_ok_iff.1 isNumber] at reads
    exact ⟨current, operand, rfl, reads, operandRead, rfl⟩
  · rintro ⟨current, operand, rfl, reads, operandRead, rfl⟩
    have found : bank.register name = .ok ⟨name, .number current⟩ :=
      register_eq_ok_iff_read?.2 ⟨rfl, reads⟩
    rw [computed, operandRead, destination, found]
    rfl

/-- The result of a calculation belongs to its destination. -/
theorem computed_eq_ok {mnemonic : Mnemonic} {compute : Word → Word → Word}
    {destination : Argument} {amount : Option Argument} {result : Word}
    (worked : bank.computed mnemonic compute destination amount =
      .ok (name, result)) :
    destination = .register name := by
  obtain ⟨_, _, isRegister, _⟩ := computed_eq_ok_iff.1 worked
  exact isRegister

end RegisterBank

end RegisterMachine

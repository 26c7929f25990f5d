import RegisterMachine.Fault

/-!
# Registers and register banks

A register is a named cell.  A bank lists registers in the order in which they
were bound, and the position of a register in this list is its slot.  Binding
respects what is there: the first register of a name stays, and a new one is
appended.  So slots never change, and a bank built by provisioning binds each
name once.
-/

namespace RegisterMachine

structure Register where
  name : Name
  cell : Cell
deriving DecidableEq

namespace Register

/-- The register `name` before anything has been written to it. -/
def zero (name : Name) : Register :=
  ⟨name, default⟩

def number (register : Register) : Except Fault Word :=
  match register.cell with
  | .number value => .ok value
  | found => .error (.notANumber register.name found)

/-- The text of a register, such as `ax:5`. -/
def text (register : Register) : String :=
  register.name ++ ":" ++ register.cell.text

theorem number_eq_ok_iff {register : Register} {value : Word} :
    register.number = .ok value ↔ register.cell = .number value := by
  cases cellCase : register.cell <;> simp [number, cellCase]

theorem number_eq_error_iff {register : Register} {fault : Fault} :
    register.number = .error fault ↔
      register.cell.asNumber? = none ∧
        fault = .notANumber register.name register.cell := by
  cases cellCase : register.cell <;>
    simp [number, cellCase, Cell.asNumber?, eq_comm]

end Register

/-- Registers in the order of their binding. -/
structure RegisterBank where
  toList : List Register
deriving DecidableEq

namespace RegisterBank

def empty : RegisterBank :=
  ⟨[]⟩

def names (bank : RegisterBank) : List Name :=
  bank.toList.map Register.name

def find? (bank : RegisterBank) (name : Name) : Option Register :=
  bank.toList.find? fun register => register.name == name

def read? (bank : RegisterBank) (name : Name) : Option Cell :=
  (bank.find? name).map Register.cell

def slot? (bank : RegisterBank) (name : Name) : Option Nat :=
  bank.toList.findIdx? fun register => register.name == name

/-- Binds a register at the end of the bank, unless its name is already bound. -/
def provision (bank : RegisterBank) (register : Register) : RegisterBank :=
  if (bank.find? register.name).isSome then bank
  else ⟨bank.toList ++ [register]⟩

/-- Binds `registers` from left to right, so that the first one of each name
counts. -/
def provisionAll (bank : RegisterBank) (registers : List Register) :
    RegisterBank :=
  registers.foldl provision bank

/-- Replaces the contents of the register bound to `name`, if there is one. -/
def write (bank : RegisterBank) (name : Name) (cell : Cell) : RegisterBank :=
  ⟨bank.toList.map fun register =>
    if register.name = name then ⟨register.name, cell⟩ else register⟩

@[simp]
theorem find?_empty (name : Name) : empty.find? name = none :=
  rfl

theorem name_of_find? {bank : RegisterBank} {name : Name} {register : Register}
    (found : bank.find? name = some register) : register.name = name := by
  simpa using List.find?_some found

theorem find?_eq_none_iff {bank : RegisterBank} {name : Name} :
    bank.find? name = none ↔ name ∉ bank.names := by
  simp [find?, names, List.find?_eq_none]

theorem find?_isSome_iff {bank : RegisterBank} {name : Name} :
    (bank.find? name).isSome ↔ name ∈ bank.names := by
  rw [Option.isSome_iff_ne_none, ne_eq, find?_eq_none_iff, Decidable.not_not]

@[simp]
theorem read?_isSome (bank : RegisterBank) (name : Name) :
    (bank.read? name).isSome = (bank.find? name).isSome := by
  simp [read?]

/-- The slot of a register is the position of its name. -/
theorem slot?_eq (bank : RegisterBank) (name : Name) :
    bank.slot? name = bank.names.findIdx? (· == name) := by
  rw [slot?, names, List.findIdx?_map]
  rfl

theorem find?_provision (bank : RegisterBank) (register : Register)
    (name : Name) :
    (bank.provision register).find? name =
      (bank.find? name).or (if register.name = name then some register else none) := by
  unfold provision
  split
  next bound =>
    by_cases same : register.name = name
    · subst same
      obtain ⟨old, found⟩ := Option.isSome_iff_exists.1 bound
      simp [found]
    · simp [same]
  next =>
    by_cases same : register.name = name <;>
      simp [find?, List.find?_append, same]

theorem read?_provision (bank : RegisterBank) (register : Register)
    (name : Name) :
    (bank.provision register).read? name =
      (bank.read? name).or
        (if register.name = name then some register.cell else none) := by
  unfold read?
  rw [find?_provision]
  cases bank.find? name <;> by_cases same : register.name = name <;> simp [same]

theorem find?_write (bank : RegisterBank) (name : Name) (cell : Cell)
    (wanted : Name) :
    (bank.write name cell).find? wanted =
      (bank.find? wanted).map fun register =>
        if register.name = name then ⟨register.name, cell⟩ else register := by
  simp only [find?, write, List.find?_map]
  congr 2
  funext register
  by_cases same : register.name = name <;> simp [same]

theorem read?_write (bank : RegisterBank) (name : Name) (cell : Cell)
    (wanted : Name) :
    (bank.write name cell).read? wanted =
      if wanted = name then (bank.read? wanted).map fun _ => cell
      else bank.read? wanted := by
  unfold read?
  rw [find?_write]
  cases found : bank.find? wanted with
  | none => simp
  | some register =>
    have sameName := name_of_find? found
    subst sameName
    by_cases same : register.name = name <;> simp [same]

@[simp]
theorem names_write (bank : RegisterBank) (name : Name) (cell : Cell) :
    (bank.write name cell).names = bank.names := by
  simp only [names, write, List.map_map]
  congr 1
  funext register
  by_cases same : register.name = name <;> simp [same]

theorem names_provision (bank : RegisterBank) (register : Register) :
    (bank.provision register).names =
      if register.name ∈ bank.names then bank.names
      else bank.names ++ [register.name] := by
  unfold provision
  simp only [find?_isSome_iff]
  split <;> simp [names]

/-- Provisioning keeps the names of a bank distinct. -/
theorem nodup_names_provision {bank : RegisterBank} (register : Register)
    (distinct : bank.names.Nodup) :
    (bank.provision register).names.Nodup := by
  rw [names_provision]
  split
  next => exact distinct
  next absent =>
    refine List.nodup_append.2 ⟨distinct, by simp, ?_⟩
    rintro name isBound other isNew rfl
    exact absent (List.mem_singleton.1 isNew ▸ isBound)

end RegisterBank

end RegisterMachine

import RegisterMachine.Counter
import RegisterMachine.Operation

/-!
# The machine

A machine consists of the instructions queued so far, the counter, and a bank
of registers.  Two registers serve the machine itself: one holds the result of
the last comparison and the other the label table.  Both are bound when they
are first written, so a machine works without them too.
-/

namespace RegisterMachine

structure Machine where
  instructions : Array Instruction
  counter : Counter
  registers : RegisterBank
deriving DecidableEq

namespace Machine

/-- A machine without instructions, whose registers are `names`, each holding
zero, followed by `provisioned`.  Of registers with the same name the first one
counts. -/
def ofRegisters (names : List Name) (provisioned : List Register) : Machine where
  instructions := #[]
  counter := .start
  registers := RegisterBank.empty.provisionAll (names.map .zero ++ provisioned)

/-- The number of instructions queued so far. -/
def queued (machine : Machine) : Nat :=
  machine.instructions.size

def nextAddress (machine : Machine) : Word :=
  Int64.ofNat machine.queued

def queue (machine : Machine) (instruction : Instruction) : Machine :=
  { machine with instructions := machine.instructions.push instruction }

/-- The instruction at the counter, or nothing when the counter has left the
instructions. -/
def fetch? (machine : Machine) : Option Instruction :=
  (machine.counter.index? machine.queued).bind (machine.instructions[·]?)

def jump (machine : Machine) (target : Word) : Except Fault Machine :=
  (Counter.jump target).map fun counter => { machine with counter }

def advance (machine : Machine) : Machine :=
  { machine with counter := machine.counter.advance }

/-- Binds a register, unless its name is bound already. -/
def provision (machine : Machine) (register : Register) : Machine :=
  { machine with registers := machine.registers.provision register }

def read? (machine : Machine) (name : Name) : Option Cell :=
  machine.registers.read? name

/-- Replaces the contents of the register bound to `name`, if there is one. -/
def write (machine : Machine) (name : Name) (cell : Cell) : Machine :=
  { machine with registers := machine.registers.write name cell }

/-- Writes to the register `name` and binds it first if necessary. -/
def assign (machine : Machine) (name : Name) (cell : Cell) : Machine :=
  (machine.provision ⟨name, cell⟩).write name cell

/-- The result of the last comparison, or zero if the comparison register holds
no number. -/
def comparison (machine : Machine) : Word :=
  ((machine.read? comparisonRegister).bind Cell.asNumber?).getD 0

def setComparison (machine : Machine) (difference : Word) : Machine :=
  machine.assign comparisonRegister (.number difference)

/-- The label table, if the label register holds one. -/
def labels? (machine : Machine) : Option LabelTable :=
  (machine.read? labelRegister).bind Cell.asLabels?

/-- The label table, or an empty one if the label register holds none. -/
def labelTable (machine : Machine) : LabelTable :=
  machine.labels?.getD .empty

def setLabels (machine : Machine) (table : LabelTable) : Machine :=
  machine.assign labelRegister (.labels table)

/-- Gives the machine an empty label table, unless it has a label table
already. -/
def ensureLabels (machine : Machine) : Machine :=
  machine.setLabels machine.labelTable

def defineLabel (machine : Machine) (label : Name) (address : Word) : Machine :=
  machine.setLabels (machine.labelTable.insert label address)

/-- An assignment sets its own register, bound or not, and no other one. -/
theorem read?_assign (machine : Machine) (name : Name) (cell : Cell)
    (wanted : Name) :
    (machine.assign name cell).read? wanted =
      if wanted = name then some cell else machine.read? wanted := by
  simp only [assign, write, provision, read?, RegisterBank.read?_write,
    RegisterBank.read?_provision]
  by_cases same : wanted = name
  · subst same
    cases machine.registers.read? wanted <;> simp
  · simp [same, Ne.symm same]

@[simp]
theorem comparison_setComparison (machine : Machine) (difference : Word) :
    (machine.setComparison difference).comparison = difference := by
  simp [comparison, setComparison, read?_assign, Cell.asNumber?]

@[simp]
theorem labels?_setLabels (machine : Machine) (table : LabelTable) :
    (machine.setLabels table).labels? = some table := by
  simp [labels?, setLabels, read?_assign, Cell.asLabels?]

@[simp]
theorem comparison_setLabels (machine : Machine) (table : LabelTable) :
    (machine.setLabels table).comparison = machine.comparison := by
  simp [comparison, setLabels, read?_assign, comparisonRegister, labelRegister]

@[simp]
theorem labels?_setComparison (machine : Machine) (difference : Word) :
    (machine.setComparison difference).labels? = machine.labels? := by
  simp [labels?, setComparison, read?_assign, comparisonRegister, labelRegister]

end Machine

end RegisterMachine

import RegisterMachine.Effect

/-!
# How a machine is stored

A machine keeps its registers in an array and finds them by a table from names
to slots, and beside its instructions it keeps their number.  An operation
changes one of these parts at a time, so the parts have to agree before it and
after it.  The table is a parameter: it is known by its empty table and by what
an insertion of a new name with a new slot does to look-ups.
-/

namespace RegisterMachine

class SlotTable (table : Type) where
  empty : table
  slot? : table → Name → Option Nat
  insert : table → Name → Nat → table

/-- Inserting a new name with a new slot adds this pair and nothing else.  What
happens to other pairs in other cases is left open. -/
class LawfulSlotTable (table : Type) [SlotTable table] : Prop where
  slot?_empty (name : Name) :
    SlotTable.slot? (SlotTable.empty : table) name = none
  slot?_insert (slots : table) (name : Name) (slot : Nat)
    (newName : SlotTable.slot? slots name = none)
    (newSlot : ∀ other, SlotTable.slot? slots other ≠ some slot)
    (wanted : Name) :
    SlotTable.slot? (SlotTable.insert slots name slot) wanted =
      if wanted = name then some slot else SlotTable.slot? slots wanted

/-- A table as the list of its pairs.  A pair with the name or the slot of a
new one gives way to it, so names and slots stay in one-to-one
correspondence. -/
structure PairTable where
  pairs : List (Name × Nat)
deriving DecidableEq

namespace PairTable

def slot? (table : PairTable) (name : Name) : Option Nat :=
  (table.pairs.find? fun pair => pair.1 == name).map Prod.snd

def insert (table : PairTable) (name : Name) (slot : Nat) : PairTable :=
  ⟨(table.pairs.filter fun pair => pair.1 ≠ name ∧ pair.2 ≠ slot) ++
    [(name, slot)]⟩

instance : SlotTable PairTable where
  empty := ⟨[]⟩
  slot? := slot?
  insert := insert

end PairTable

structure Storage (table : Type) where
  instructions : Array Instruction
  counter : Counter
  registers : Array Register
  slots : table
  /-- The number of instructions queued so far. -/
  assembled : Nat

namespace Storage

variable {table : Type} [SlotTable table]

def empty : Storage table :=
  ⟨#[], .start, #[], SlotTable.empty, 0⟩

def slot? (storage : Storage table) (name : Name) : Option Nat :=
  SlotTable.slot? storage.slots name

def register? (storage : Storage table) (name : Name) : Option Register :=
  (storage.slot? name).bind (storage.registers[·]?)

def names (storage : Storage table) : List Name :=
  storage.registers.toList.map Register.name

/-- Binds a register, unless its name is bound already, and tells its slot. -/
def provision (storage : Storage table) (register : Register) :
    Storage table × Nat :=
  match storage.slot? register.name with
  | some slot => (storage, slot)
  | none =>
    let slot := storage.registers.size
    ({ storage with
        slots := SlotTable.insert storage.slots register.name slot
        registers := storage.registers.push register }, slot)

def provisionAll (storage : Storage table) (registers : List Register) :
    Storage table :=
  registers.foldl (fun storage register => (storage.provision register).1)
    storage

/-- A machine without instructions, whose registers are `names`, each holding
zero, followed by `provisioned`. -/
def ofRegisters (names : List Name) (provisioned : List Register) :
    Storage table :=
  empty.provisionAll (names.map .zero ++ provisioned)

def queue (storage : Storage table) (instruction : Instruction) :
    Storage table × Word :=
  let assembled := storage.assembled + 1
  ({ storage with
      instructions := storage.instructions.push instruction
      assembled }, Int64.ofNat (assembled - 1))

def jump (storage : Storage table) (target : Word) :
    Except Fault (Storage table) :=
  (Counter.jump target).map fun counter => { storage with counter }

def advance (storage : Storage table) : Storage table :=
  { storage with counter := storage.counter.advance }

/-- Changes the contents of the register in a slot. -/
def rewrite (storage : Storage table) (slot : Nat) (change : Cell → Cell) :
    Storage table :=
  { storage with
    registers := storage.registers.modify slot fun register =>
      ⟨register.name, change register.cell⟩ }

def write (storage : Storage table) (name : Name) (cell : Cell) :
    Storage table :=
  match storage.slot? name with
  | some slot => storage.rewrite slot fun _ => cell
  | none => storage

/-- Binds a register if necessary and changes the contents of the one that is
bound to its name. -/
def update (storage : Storage table) (register : Register)
    (change : Cell → Cell) : Storage table :=
  let bound := storage.provision register
  bound.1.rewrite bound.2 change

def setComparison (storage : Storage table) (difference : Word) :
    Storage table :=
  storage.update (.zero comparisonRegister) fun _ => .number difference

/-- Changes the label table.  A label register that holds something else gets
an empty table first. -/
def changeLabels (storage : Storage table) (change : LabelTable → LabelTable) :
    Storage table :=
  storage.update ⟨labelRegister, .labels .empty⟩ fun cell =>
    .labels (change (cell.asLabels?.getD .empty))

/-- The machine that operations see: they get at a register by its name. -/
def seen (storage : Storage table) : Machine where
  instructions := storage.instructions
  counter := storage.counter
  registers := ⟨storage.registers.toList.filterMap fun register =>
    storage.register? register.name⟩

/-- The effect of a basic operation.  The address of a label is taken from the
number of instructions that is kept beside them. -/
def effect (storage : Storage table) :
    Mnemonic → List Argument → Except Fault Effect
  | .label, [.label name] =>
    .ok (.define name (Int64.ofNat storage.assembled - 1))
  | mnemonic, arguments => mnemonic.effect storage.seen arguments

def apply (storage : Storage table) : Effect → Except Fault (Storage table)
  | .idle => .ok storage
  | .store register cell => .ok (storage.write register cell)
  | .compare difference => .ok (storage.setComparison difference)
  | .define label address =>
    .ok (storage.changeLabels fun labels => labels.insert label address)
  | .goto target => storage.jump target

def execute (storage : Storage table) (mnemonic : Mnemonic)
    (arguments : List Argument) : Except Fault (Storage table) :=
  (storage.effect mnemonic arguments).bind storage.apply

/-- The storage after an attempt, which keeps it if it fails. -/
def settle (storage : Storage table) :
    Except Fault (Storage table) → Storage table
  | .ok changed => changed
  | .error _ => storage

end Storage

/-- A change of a machine from outside. -/
inductive Command where
  | provision (register : Register)
  | queue (instruction : Instruction)
  | jump (target : Word)
  | advance
  | write (name : Name) (cell : Cell)
  | compare (difference : Word)
  | changeLabels (change : LabelTable → LabelTable)
  | execute (mnemonic : Mnemonic) (arguments : List Argument)

namespace Storage

variable {table : Type} [SlotTable table]

def perform (storage : Storage table) : Command → Storage table
  | .provision register => (storage.provision register).1
  | .queue instruction => (storage.queue instruction).1
  | .jump target => storage.settle (storage.jump target)
  | .advance => storage.advance
  | .write name cell => storage.write name cell
  | .compare difference => storage.setComparison difference
  | .changeLabels change => storage.changeLabels change
  | .execute mnemonic arguments =>
    storage.settle (storage.execute mnemonic arguments)

def performAll (storage : Storage table) (commands : List Command) :
    Storage table :=
  commands.foldl perform storage

end Storage

namespace Machine

def perform (machine : Machine) : Command → Machine
  | .provision register => machine.provision register
  | .queue instruction => machine.queue instruction
  | .jump target => (Outcome.ofExcept machine (machine.jump target)).machine
  | .advance => machine.advance
  | .write name cell => machine.write name cell
  | .compare difference => machine.setComparison difference
  | .changeLabels change => machine.setLabels (change machine.labelTable)
  | .execute mnemonic arguments => (mnemonic.execute arguments machine).machine

def performAll (machine : Machine) (commands : List Command) : Machine :=
  commands.foldl perform machine

end Machine

end RegisterMachine

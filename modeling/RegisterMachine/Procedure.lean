import RegisterMachine.Storage

/-!
# Operations statement by statement

An operation on a stored machine is a sequence of statements.  Some of them look
something up and may refuse to go on, others change a part of the machine, and
what they have changed stays changed when a later statement refuses.  So an
operation that fails leaves the machine as it was only if all its refusals come
before its first change.

Two kinds of statements are not defined everywhere: an index has to lie inside
its array or list, and a cell that has just been made a label table has to be
one.  Elsewhere they break down, which is not a fault.
-/

namespace RegisterMachine

/-- The reason why a sequence of statements does not go on. -/
inductive Stop where
  | refused (fault : Fault)
  | breakdown
deriving DecidableEq

/-- A sequence of statements on a stored machine.  If it stops, it leaves the
machine as the statement that stopped found it. -/
abbrev Procedure (table : Type) :=
  EStateM Stop (Storage table)

structure Place where
  slot : Nat
  register : Register
deriving DecidableEq

namespace Procedure

variable {table : Type} {α : Type}

def refuse (fault : Fault) : Procedure table α :=
  throw (.refused fault)

/-- Goes on with something that has to be there. -/
def demand : Option α → Procedure table α
  | some value => pure value
  | none => throw .breakdown

/-- Goes on with a result, or refuses for its fault. -/
def ofExcept : Except Fault α → Procedure table α
  | .ok value => pure value
  | .error fault => refuse fault

def checkArity (mnemonic : Mnemonic) (given : Nat) : Procedure table Unit :=
  if mnemonic.arity.accepts given then pure ()
  else refuse (.wrongArity mnemonic.text mnemonic.arity given)

def argument (arguments : List Argument) (index : Nat) :
    Procedure table Argument :=
  demand arguments[index]?

def registerAt (slot : Nat) : Procedure table Register := do
  demand (← get).registers[slot]?

variable [SlotTable table]

/-- The register bound to `name`, with its slot. -/
def place? (name : Name) : Procedure table (Option Place) := do
  match (← get).slot? name with
  | some slot => return some ⟨slot, ← registerAt slot⟩
  | none => return none

def read? (name : Name) : Procedure table (Option Cell) := do
  return (← place? name).map fun place => place.register.cell

def destination (mnemonic : Mnemonic) : Argument → Procedure table Place
  | .register name => do
    match ← place? name with
    | some place => return place
    | none => refuse (.unknownName name)
  | found => refuse (.expectedRegister mnemonic.text found)

def amount : Option Argument → Procedure table Word
  | none => return 1
  | some (.literal value) => return value
  | some (.register name) => do
    match ← place? name with
    | some place => ofExcept place.register.number
    | none => refuse (.unknownName name)
  | some (.label name) => refuse (.notNumeric (.label name))

def comparison : Procedure table Word := do
  return ((← read? comparisonRegister).bind Cell.asNumber?).getD 0

def labels? : Procedure table (Option LabelTable) := do
  return (← read? labelRegister).bind Cell.asLabels?

def target : Argument → Procedure table Word
  | .literal address => return address
  | .label name => do
    match (← labels?).bind fun labels => labels.get? name with
    | some address => return address
    | none => refuse (.undefinedLabel name)
  | .register name => refuse (.notAnAddress (.register name))

/-- Replaces the contents of the register in a slot. -/
def overwrite (slot : Nat) (cell : Cell) : Procedure table Unit := do
  let _ ← registerAt slot
  modify fun storage => storage.rewrite slot fun _ => cell

/-- Binds a register, unless its name is bound already, and tells its slot. -/
def provision (register : Register) : Procedure table Nat :=
  modifyGet fun storage =>
    let bound := storage.provision register
    (bound.2, bound.1)

def setComparison (difference : Word) : Procedure table Unit := do
  let slot ← provision (.zero comparisonRegister)
  overwrite slot (.number difference)

/-- The label table with the slot that holds it.  The label register is bound if
necessary, and gets an empty table if it holds something else. -/
def ensureLabels : Procedure table (Nat × LabelTable) := do
  let slot ← provision ⟨labelRegister, .labels .empty⟩
  let register ← registerAt slot
  if register.cell.asLabels?.isNone then
    overwrite slot (.labels .empty)
  let written ← registerAt slot
  return (slot, ← demand written.cell.asLabels?)

def insertLabel (label : Name) (address : Word) : Procedure table Unit := do
  let (slot, labels) ← ensureLabels
  overwrite slot (.labels (labels.insert label address))

def jumpTo (target : Word) : Procedure table Unit := do
  let counter ← ofExcept (Counter.jump target)
  modify fun storage => { storage with counter }

def move (arguments : List Argument) : Procedure table Unit := do
  checkArity .mov arguments.length
  let source ← argument arguments 1
  let place ← destination .mov (← argument arguments 0)
  overwrite place.slot source.toCell

def arithmetic (mnemonic : Mnemonic) (compute : Word → Word → Word)
    (arguments : List Argument) : Procedure table Unit := do
  checkArity mnemonic arguments.length
  let operand ← amount arguments[1]?
  let place ← destination mnemonic (← argument arguments 0)
  let current ← ofExcept place.register.number
  overwrite place.slot (.number (compute current operand))

def compare (arguments : List Argument) : Procedure table Unit := do
  checkArity .cmp arguments.length
  let operand ← amount arguments[1]?
  let place ← destination .cmp (← argument arguments 0)
  let current ← ofExcept place.register.number
  setComparison (current - operand)

def label (arguments : List Argument) : Procedure table Unit := do
  checkArity .label arguments.length
  match ← argument arguments 0 with
  | .label name => insertLabel name (Int64.ofNat (← get).assembled - 1)
  | found => refuse (.expectedLabel Mnemonic.label.text found)

def jump (condition : Condition) (arguments : List Argument) :
    Procedure table Unit := do
  checkArity (.jump condition) arguments.length
  if condition.holds (← comparison) then
    jumpTo (← target (← argument arguments 0))

def execute (mnemonic : Mnemonic) (arguments : List Argument) :
    Procedure table Unit :=
  match mnemonic with
  | .mov => move arguments
  | .inc => arithmetic .inc (· + ·) arguments
  | .dec => arithmetic .dec (· - ·) arguments
  | .cmp => compare arguments
  | .label => label arguments
  | .jump condition => jump condition arguments

end Procedure

end RegisterMachine

import RegisterMachine.Procedure

/-!
# Commands statement by statement

A command from outside is a sequence of statements too.  Besides indices, its
numbers have bounds: a count may neither fall below zero nor grow out of 64
bits, and the address in front of the next instruction has to be a word.  A
number out of its bounds is a breakdown, like an index out of its list.
-/

namespace RegisterMachine

namespace Procedure

variable {table : Type}

/-- A count with this value, which has to be one. -/
def asCount (value : Int) : Procedure table Nat :=
  demand (if 0 ≤ value ∧ value < UInt64.size then some value.toNat else none)

/-- A word with this value, which has to be one. -/
def asWord (value : Int) : Procedure table Word :=
  demand (Word.ofInt? value)

/-- The position of the counter in a table of `size` instructions.  Only an
address that is not negative is taken as a position. -/
def position? (size : Nat) : Procedure table (Option Nat) := do
  let address := (← get).counter.address
  if address < 0 then
    return none
  let position ← asCount address.toInt
  if size ≤ position then
    return none
  return some position

/-- The instruction at the counter, or nothing when the counter has left the
instructions. -/
def fetch? : Procedure table (Option Instruction) := do
  let instructions := (← get).instructions
  match ← position? instructions.size with
  | some position => return some (← demand instructions[position]?)
  | none => return none

def queue (instruction : Instruction) : Procedure table Word := do
  modify fun storage =>
    { storage with instructions := storage.instructions.push instruction }
  let assembled ← asCount ((← get).assembled + 1)
  modify fun storage => { storage with assembled }
  return Int64.ofNat (← asCount (assembled - 1))

variable [SlotTable table]

def write (name : Name) (cell : Cell) : Procedure table Unit := do
  match ← place? name with
  | some place => overwrite place.slot cell
  | none => return

/-- Changes the label table, which the label register is given if it holds
something else. -/
def changeLabels (change : LabelTable → LabelTable) : Procedure table Unit := do
  let (slot, labels) ← ensureLabels
  overwrite slot (.labels (change labels))

/-- Defines a label at the last instruction, or in front of the first one. -/
def labelLast (arguments : List Argument) : Procedure table Unit := do
  checkArity .label arguments.length
  match ← argument arguments 0 with
  | .label name =>
    let address ← asWord ((Int64.ofNat (← get).assembled).toInt - 1)
    insertLabel name address
  | found => refuse (.expectedLabel Mnemonic.label.text found)

/-- Performs a basic operation whose numbers have to stay within their
bounds. -/
def operate : Mnemonic → List Argument → Procedure table Unit
  | .label, arguments => labelLast arguments
  | mnemonic, arguments => execute mnemonic arguments

/-- Performs a command up to its first refusal. -/
def perform : Command → Procedure table Unit
  | .provision register => do
    let _ ← provision register
  | .queue instruction => do
    let _ ← queue instruction
  | .jump target => jumpTo target
  | .advance => modify Storage.advance
  | .write name cell => write name cell
  | .compare difference => setComparison difference
  | .changeLabels change => changeLabels change
  | .execute mnemonic arguments => operate mnemonic arguments

/-- Goes on after a refusal, but not after a breakdown. -/
def attempt (procedure : Procedure table Unit) : Procedure table Unit :=
  tryCatch procedure fun
    | .refused _ => return
    | .breakdown => throw .breakdown

/-- Performs commands one after the other, refused ones included. -/
def performAll : List Command → Procedure table Unit
  | [] => return
  | command :: rest => do
    attempt (perform command)
    performAll rest

end Procedure

end RegisterMachine

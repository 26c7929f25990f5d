import RegisterMachine.Machine
import RegisterMachine.Text.Grid

/-!
# Listings

The state of a machine as a text for readers: the counter, the number of
instructions, and side by side the registers with their contents and the
instructions with their addresses.  An arrow points to the instruction at the
counter.
-/

namespace RegisterMachine

namespace Machine

/-- The registers of a machine, in the order of their binding. -/
def registerGrid (machine : Machine) : Text.Grid where
  columns := [⟨"Name", .right⟩, ⟨"Contents", .left⟩]
  rows := machine.registers.toList.map fun register =>
    [register.name ++ " =", register.cell.text]

/-- The heading of the instruction at `address`. -/
def addressText (machine : Machine) (address : Nat) : String :=
  let arrow :=
    if machine.counter.index? machine.queued = some address then "* --> " else ""
  arrow ++ "[" ++ toString address ++ "] ="

def instructionGrid (machine : Machine) : Text.Grid where
  columns := [⟨"Address", .right⟩, ⟨"Instruction", .left⟩]
  rows := machine.instructions.toList.mapIdx fun address instruction =>
    [machine.addressText address, instruction.text]

def text (machine : Machine) : String :=
  let grid : Text.Grid :=
    { columns := [⟨"Registers", .left⟩, ⟨"Instructions", .left⟩]
      rows := [[machine.registerGrid.text, machine.instructionGrid.text]] }
  machine.counter.text ++ "\tAssembled: " ++ toString machine.queued ++ "\n" ++
    grid.text

end Machine

end RegisterMachine

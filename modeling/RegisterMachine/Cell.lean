import RegisterMachine.LabelTable

/-!
# Register contents

Besides numbers a register can hold the identity of another register, a bare
label, or a whole label table.
-/

namespace RegisterMachine

inductive Cell where
  /-- A number, which operations can compute with. -/
  | number (value : Word)
  /-- The identity of a register, not its contents. -/
  | register (name : Name)
  /-- A label as a bare symbol. -/
  | label (name : Name)
  /-- The table in which jumps look up their labels. -/
  | labels (table : LabelTable)
deriving DecidableEq

namespace Cell

/-- A cell nobody has written to holds zero. -/
instance : Inhabited Cell :=
  ⟨number 0⟩

def asNumber? : Cell → Option Word
  | number value => some value
  | register _ | label _ | labels _ => none

def asLabels? : Cell → Option LabelTable
  | labels table => some table
  | number _ | register _ | label _ => none

/-- The text of a cell.  Identities and symbols are marked, so that they differ
from numbers. -/
def text : Cell → String
  | number value => Word.text value
  | register name => "<REG, " ++ name ++ ">"
  | label name => "<LABEL, " ++ name ++ ">"
  | labels table => table.text

end Cell

end RegisterMachine

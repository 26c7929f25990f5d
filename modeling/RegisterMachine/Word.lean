/-!
# Machine words and names

The machine computes on signed 64-bit words whose arithmetic wraps around, and
it knows registers, operations and labels by name.  A word is written in
decimal, with a leading minus sign when it is negative.
-/

namespace RegisterMachine

/-- A signed 64-bit machine word.  Sums and differences are taken modulo
`2 ^ 64`. -/
abbrev Word := Int64

/-- The name of a register, an operation or a label.  Every string is a
name, the empty one included. -/
abbrev Name := String

namespace Word

def text (word : Word) : String :=
  toString word.toInt

/-- The word with the value `value`, unless the value needs more than 64 bits. -/
def ofInt? (value : Int) : Option Word :=
  if Int64.minValue.toInt ≤ value ∧ value ≤ Int64.maxValue.toInt then
    some (Int64.ofInt value)
  else
    none

end Word

end RegisterMachine

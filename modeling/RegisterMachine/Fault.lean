import RegisterMachine.Argument

/-!
# Faults

Everything that can go wrong: while the names of a machine are declared, while
a program is assembled, and while it runs.  A fault names its cause; its wording
is `Fault.message`.
-/

namespace RegisterMachine

inductive Fault where
  /-- The name is neither an operation nor a register. -/
  | unknownName (name : Name)
  /-- The name of an operation stands where a register is wanted. -/
  | notARegister (name : Name)
  /-- A jump leads to a label without an address. -/
  | undefinedLabel (label : Name)
  /-- An operation has too few or too many arguments. -/
  | wrongArity (operation : Name) (expected : Arity) (given : Nat)
  /-- The destination of an operation is not a register. -/
  | expectedRegister (operation : Name) (found : Argument)
  /-- The argument of an operation is not a label. -/
  | expectedLabel (operation : Name) (found : Argument)
  /-- Arithmetic on a register that holds something else than a number. -/
  | notANumber (register : Name) (found : Cell)
  /-- The argument does not stand for a number. -/
  | notNumeric (found : Argument)
  /-- The argument does not stand for an address. -/
  | notAnAddress (found : Argument)
  /-- A jump leads to an address before the start of the program. -/
  | invalidAddress (target : Word)
  /-- Two declarations share a name. -/
  | nameCollision (name : Name)
deriving DecidableEq

namespace Fault

/-- A name or argument between backquotes. -/
def quoted (text : String) : String :=
  "`" ++ text ++ "`"

def message : Fault → String
  | unknownName name =>
    quoted name ++ " is neither an operation nor a register"
  | notARegister name =>
    quoted name ++ " is not a register"
  | undefinedLabel label =>
    "jump to undefined label " ++ quoted label
  | wrongArity operation expected given =>
    operation ++ " takes " ++ expected.text ++ " argument(s) but was given "
      ++ toString given
  | expectedRegister operation found =>
    operation ++ " requires a register as its destination, found " ++ found.text
  | expectedLabel operation found =>
    operation ++ " requires a label, found " ++ found.text
  | notANumber register found =>
    quoted register ++ " holds " ++ found.text ++ ", which is not a number"
  | notNumeric found =>
    quoted found.text ++ " is not a numeric operand"
  | notAnAddress found =>
    quoted found.text ++ " cannot be used as a jump target"
  | invalidAddress target =>
    "jump target " ++ Word.text target ++ " lies before the start of the program"
  | nameCollision name =>
    "the name " ++ quoted name ++ " is declared more than once"

end Fault

end RegisterMachine

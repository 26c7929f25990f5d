import RegisterMachine.Mnemonic
import RegisterMachine.Register

/-!
# Operands

How the arguments of an operation are read in a register bank.  The destination
of an operation has to be a register.  An amount is a literal or the number in a
register, and a missing amount is one.

The amount is read before the destination, so if both are wrong it is the amount
that is reported.
-/

namespace RegisterMachine

namespace RegisterBank

/-- The register `name`, which must be bound. -/
def register (bank : RegisterBank) (name : Name) : Except Fault Register :=
  match bank.find? name with
  | some register => .ok register
  | none => .error (.unknownName name)

/-- The number that an optional argument stands for. -/
def amount (bank : RegisterBank) : Option Argument → Except Fault Word
  | none => .ok 1
  | some (.literal value) => .ok value
  | some (.register name) => do
    let register ← bank.register name
    register.number
  | some (.label name) => .error (.notNumeric (.label name))

def destination (bank : RegisterBank) (mnemonic : Mnemonic) :
    Argument → Except Fault Register
  | .register name => bank.register name
  | found => .error (.expectedRegister mnemonic.text found)

/-- The destination of a calculation, and the result of `compute` on the number
in it and the amount. -/
def computed (bank : RegisterBank) (mnemonic : Mnemonic)
    (compute : Word → Word → Word) (destination : Argument)
    (amount : Option Argument) : Except Fault (Name × Word) := do
  let operand ← bank.amount amount
  let register ← bank.destination mnemonic destination
  let current ← register.number
  return (register.name, compute current operand)

theorem register_eq_ok_iff {bank : RegisterBank} {name : Name}
    {register : Register} :
    bank.register name = .ok register ↔ bank.find? name = some register := by
  cases found : bank.find? name <;> simp [RegisterBank.register, found]

theorem register_eq_error_iff {bank : RegisterBank} {name : Name}
    {fault : Fault} :
    bank.register name = .error fault ↔
      bank.find? name = none ∧ fault = .unknownName name := by
  cases found : bank.find? name <;>
    simp [RegisterBank.register, found, eq_comm]

end RegisterBank

end RegisterMachine

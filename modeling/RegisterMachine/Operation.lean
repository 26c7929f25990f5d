import RegisterMachine.Mnemonic
import RegisterMachine.Register

/-!
# Operations, instructions and invocations

An operation is described by its names, by the number of arguments it takes, by
the registers it needs beside those of the user, and by the time at which it
acts: an instruction is queued and acts when the machine reaches it, while an
immediate operation acts during assembly.  It performs one of the basic
operations, or only checks the number of its arguments.

A program is written as a list of invocations, which name their operation.  The
machine keeps instructions, in which the name has been replaced by the
operation itself.
-/

namespace RegisterMachine

/-- The register with the result of the last comparison. -/
def comparisonRegister : Name :=
  "bool"

/-- The register with the label table. -/
def labelRegister : Name :=
  "labels"

/-- The time at which an operation acts. -/
inductive Kind where
  /-- The operation is queued, and acts when the machine reaches it. -/
  | instruction
  /-- The operation acts while the program is assembled. -/
  | immediate
deriving DecidableEq

namespace Mnemonic

/-- A label acts during assembly, all other basic operations are queued. -/
def kind : Mnemonic → Kind
  | label => .immediate
  | mov | inc | dec | cmp | jump _ => .instruction

/-- A move has two arguments, arithmetic and comparisons one or two, and labels
and jumps one. -/
def arity : Mnemonic → Arity
  | mov => .exactly 2
  | inc | dec | cmp => ⟨1, 2⟩
  | label | jump _ => .exactly 1

/-- The registers a basic operation works with beside those of its arguments.
Jumps ask for both of theirs, so that they do not depend on the presence of a
comparison or a label. -/
def provisions : Mnemonic → List Register
  | mov | inc | dec => []
  | cmp => [.zero comparisonRegister]
  | label => [⟨labelRegister, .labels .empty⟩]
  | jump _ => [.zero comparisonRegister, ⟨labelRegister, .labels .empty⟩]

end Mnemonic

structure Operation where
  name : Name
  aliases : List Name
  kind : Kind
  arity : Arity
  provisions : List Register
  performs : Option Mnemonic
deriving DecidableEq

namespace Operation

/-- The operation that performs `mnemonic` under its own names. -/
def ofMnemonic (mnemonic : Mnemonic) : Operation where
  name := mnemonic.text
  aliases := mnemonic.aliases
  kind := mnemonic.kind
  arity := mnemonic.arity
  provisions := mnemonic.provisions
  performs := some mnemonic

def math : List Operation :=
  Mnemonic.math.map ofMnemonic

def jumps : List Operation :=
  Mnemonic.jumps.map ofMnemonic

def standard : List Operation :=
  math ++ jumps

/-- The names by which an operation can be invoked. -/
def names (operation : Operation) : List Name :=
  operation.name :: operation.aliases

def checkArity (operation : Operation) (given : Nat) : Except Fault Unit :=
  if operation.arity.accepts given then .ok ()
  else .error (.wrongArity operation.name operation.arity given)

end Operation

/-- An operation with its arguments, as the machine keeps it. -/
structure Instruction where
  operation : Operation
  arguments : List Argument
deriving DecidableEq

/-- The text of an instruction.  It shows the name of the operation, not the
alias under which it was invoked. -/
def Instruction.text (instruction : Instruction) : String :=
  Argument.applicationText instruction.operation.name instruction.arguments

/-- A line of a program: the name of an operation or a register, and
arguments. -/
structure Invocation where
  name : Name
  arguments : List Argument
deriving DecidableEq

def Invocation.text (invocation : Invocation) : String :=
  Argument.applicationText invocation.name invocation.arguments

end RegisterMachine

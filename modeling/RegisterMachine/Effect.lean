import RegisterMachine.Machine
import RegisterMachine.Operand

/-!
# What operations do

An operation first works out its effect, which may fail, and then has it
carried out.  The effect of a basic operation is one of five simple changes of
the machine, so all reading of registers and all checks of arguments come before
the first change, and an operation that fails leaves the machine as it was
(`Mnemonic.machine_of_execute_failed`).
-/

namespace RegisterMachine

/-- The machine after it acted, with the fault if it failed. -/
inductive Outcome where
  | done (machine : Machine)
  | failed (fault : Fault) (machine : Machine)
deriving DecidableEq

namespace Outcome

/-- The machine after it acted, whether it failed or not. -/
def machine : Outcome → Machine
  | done machine | failed _ machine => machine

def fault? : Outcome → Option Fault
  | done _ => none
  | failed fault _ => some fault

def toExcept : Outcome → Except Fault Machine
  | done machine => .ok machine
  | failed fault _ => .error fault

/-- Lets the machine go on after a success. -/
def andThen (outcome : Outcome) (next : Machine → Outcome) : Outcome :=
  match outcome with
  | done machine => next machine
  | failed fault machine => failed fault machine

/-- The outcome of a change which either succeeds or leaves `machine` as it
was. -/
def ofExcept (machine : Machine) : Except Fault Machine → Outcome
  | .ok changed => done changed
  | .error fault => failed fault machine

@[simp]
theorem andThen_done (machine : Machine) (next : Machine → Outcome) :
    (done machine).andThen next = next machine :=
  rfl

@[simp]
theorem andThen_failed (fault : Fault) (machine : Machine)
    (next : Machine → Outcome) :
    (failed fault machine).andThen next = failed fault machine :=
  rfl

end Outcome

namespace Machine

/-- The address that a jump leads to: a literal one, or that of a label. -/
def target (machine : Machine) : Argument → Except Fault Word
  | .literal address => .ok address
  | .label name =>
    match machine.labels?.bind fun table => table.get? name with
    | some address => .ok address
    | none => .error (.undefinedLabel name)
  | .register name => .error (.notAnAddress (.register name))

end Machine

inductive Effect where
  /-- Nothing changes. -/
  | idle
  /-- A register gets new contents. -/
  | store (register : Name) (cell : Cell)
  /-- The result of a comparison is recorded. -/
  | compare (difference : Word)
  /-- A label gets an address. -/
  | define (label : Name) (address : Word)
  /-- The counter is set. -/
  | goto (target : Word)
deriving DecidableEq

namespace Effect

/-- Carries an effect out.  This fails only for a jump to an address before the
lowest target. -/
def apply (effect : Effect) (machine : Machine) : Outcome :=
  match effect with
  | idle => .done machine
  | store register cell => .done (machine.write register cell)
  | compare difference => .done (machine.setComparison difference)
  | define label address => .done (machine.defineLabel label address)
  | goto target => .ofExcept machine (machine.jump target)

theorem machine_of_apply_failed {effect : Effect} {machine stopped : Machine}
    {fault : Fault} (failed : effect.apply machine = .failed fault stopped) :
    stopped = machine := by
  cases effect with
  | goto target =>
    cases moved : machine.jump target <;>
      simp_all [apply, Outcome.ofExcept]
  | _ => simp [apply] at failed

/-- Carries out what an operation worked out, or reports why it could not. -/
def carryOut (effect : Except Fault Effect) (machine : Machine) : Outcome :=
  match effect with
  | .ok effect => effect.apply machine
  | .error fault => .failed fault machine

theorem machine_of_carryOut_failed {effect : Except Fault Effect}
    {machine stopped : Machine} {fault : Fault}
    (failed : carryOut effect machine = .failed fault stopped) :
    stopped = machine := by
  cases effect with
  | ok effect => exact machine_of_apply_failed failed
  | error _ => exact (Outcome.failed.inj failed).2.symm

end Effect

namespace Mnemonic

/-- A move stores its second argument as it stands. -/
def moveEffect (bank : RegisterBank) (destination source : Argument) :
    Except Fault Effect := do
  let register ← bank.destination mov destination
  return .store register.name source.toCell

/-- Arithmetic stores its result in its destination. -/
def arithmeticEffect (bank : RegisterBank) (mnemonic : Mnemonic)
    (compute : Word → Word → Word) (destination : Argument)
    (amount : Option Argument) : Except Fault Effect := do
  let (name, result) ← bank.computed mnemonic compute destination amount
  return .store name (.number result)

/-- A comparison records the difference of its operands. -/
def compareEffect (bank : RegisterBank) (destination : Argument)
    (amount : Option Argument) : Except Fault Effect := do
  let (_, difference) ← bank.computed cmp (· - ·) destination amount
  return .compare difference

/-- A label gets the address of the instruction queued last. -/
def labelEffect (machine : Machine) : Argument → Except Fault Effect
  | .label name => .ok (.define name (machine.nextAddress - 1))
  | found => .error (.expectedLabel label.text found)

/-- A jump leads to its target if the last comparison meets the condition.
Otherwise its argument is not looked at. -/
def jumpEffect (machine : Machine) (condition : Condition)
    (argument : Argument) : Except Fault Effect :=
  if condition.holds machine.comparison then
    (machine.target argument).map .goto
  else
    .ok .idle

def effect (mnemonic : Mnemonic) (machine : Machine)
    (arguments : List Argument) : Except Fault Effect :=
  match mnemonic, arguments with
  | mov, [destination, source] =>
    moveEffect machine.registers destination source
  | inc, [destination] =>
    arithmeticEffect machine.registers inc (· + ·) destination none
  | inc, [destination, amount] =>
    arithmeticEffect machine.registers inc (· + ·) destination (some amount)
  | dec, [destination] =>
    arithmeticEffect machine.registers dec (· - ·) destination none
  | dec, [destination, amount] =>
    arithmeticEffect machine.registers dec (· - ·) destination (some amount)
  | cmp, [destination] => compareEffect machine.registers destination none
  | cmp, [destination, amount] =>
    compareEffect machine.registers destination (some amount)
  | label, [argument] => labelEffect machine argument
  | jump condition, [argument] => jumpEffect machine condition argument
  | _, _ =>
    .error (.wrongArity mnemonic.text mnemonic.arity arguments.length)

def execute (mnemonic : Mnemonic) (arguments : List Argument)
    (machine : Machine) : Outcome :=
  Effect.carryOut (mnemonic.effect machine arguments) machine

/-- A basic operation that fails leaves the machine as it was. -/
theorem machine_of_execute_failed {mnemonic : Mnemonic}
    {arguments : List Argument} {machine stopped : Machine} {fault : Fault}
    (failed : mnemonic.execute arguments machine = .failed fault stopped) :
    stopped = machine :=
  Effect.machine_of_carryOut_failed failed

end Mnemonic

namespace Operation

/-- The effect of an operation: that of the basic operation it performs.  An
operation that performs none only checks the number of its arguments. -/
def effect (operation : Operation) (machine : Machine)
    (arguments : List Argument) : Except Fault Effect :=
  match operation.performs with
  | some mnemonic => mnemonic.effect machine arguments
  | none => (operation.checkArity arguments.length).map fun _ => .idle

end Operation

namespace Instruction

def effect (instruction : Instruction) (machine : Machine) :
    Except Fault Effect :=
  instruction.operation.effect machine instruction.arguments

def execute (instruction : Instruction) (machine : Machine) : Outcome :=
  Effect.carryOut (instruction.effect machine) machine

/-- An instruction that fails leaves the machine as it was. -/
theorem machine_of_execute_failed {instruction : Instruction}
    {machine stopped : Machine} {fault : Fault}
    (failed : instruction.execute machine = .failed fault stopped) :
    stopped = machine :=
  Effect.machine_of_carryOut_failed failed

end Instruction

end RegisterMachine

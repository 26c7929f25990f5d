import RegisterMachine.Effect

/-!
# Events

What a machine reports about its work: the queueing of instructions and the
definition of labels during assembly, and the instructions it fetches with their
effects during a run.  An event is reported whether or not somebody listens, so
events are computed beside the actions and not by them.
-/

namespace RegisterMachine

/-- How important an event is, from the least to the most important. -/
inductive Level where
  | trace
  | debug
  | info
deriving DecidableEq

inductive Event where
  /-- An instruction is about to be queued at an address. -/
  | queued (address : Nat) (instruction : Instruction)
  /-- An immediate operation is about to act. -/
  | immediate (invocation : Invocation)
  /-- A label got an address, possibly in place of a previous one. -/
  | labelled (label : Name) (previous : Option Word) (address : Word)
  /-- A run starts on a number of instructions. -/
  | started (count : Nat)
  /-- The instruction at the counter is about to be executed. -/
  | fetched (counter : Counter) (instruction : Instruction)
  /-- A basic operation wrote to a register. -/
  | stored (mnemonic : Mnemonic) (register : Name) (cell : Cell)
  /-- A jump found its target. -/
  | taken (mnemonic : Mnemonic) (counter : Counter) (target : Word)
  /-- A run came to its end with these results. -/
  | finished (results : List (Name × Cell))
deriving DecidableEq

namespace Event

def level : Event → Level
  | started _ | finished _ => .info
  | queued _ _ | immediate _ | labelled _ _ _ | taken _ _ _ => .debug
  | fetched _ _ | stored _ _ _ => .trace

/-- The text of one result, such as `ax = 5`. -/
def resultText (result : Name × Cell) : String :=
  result.1 ++ " = " ++ result.2.text

def message : Event → String
  | queued address instruction =>
    "[" ++ toString address ++ "] " ++ instruction.text
  | immediate invocation => "immediate " ++ invocation.text
  | labelled label none address =>
    "label " ++ label ++ " = " ++ Word.text address
  | labelled label (some previous) address =>
    "label " ++ label ++ " moved from " ++ Word.text previous ++ " to "
      ++ Word.text address
  | started count => "running " ++ toString count ++ " instruction(s)"
  | fetched counter instruction => counter.text ++ ": " ++ instruction.text
  | stored mnemonic register cell =>
    mnemonic.text ++ ": " ++ register ++ " <- " ++ cell.text
  | taken mnemonic counter target =>
    mnemonic.text ++ " taken: " ++ counter.text ++ " -> " ++ Word.text target
  | finished results =>
    "finished: " ++ ", ".intercalate (results.map resultText)

end Event

/-- What a basic operation reports about its effect on a machine.  A jump is
reported as soon as its target is found, even if the target turns out to be
invalid. -/
def Effect.events (effect : Effect) (mnemonic : Mnemonic) (machine : Machine) :
    List Event :=
  match effect with
  | .idle => []
  | .store register cell => [.stored mnemonic register cell]
  | .compare difference =>
    [.stored mnemonic comparisonRegister (.number difference)]
  | .define label address =>
    [.labelled label (machine.labelTable.record label address).2 address]
  | .goto target => [.taken mnemonic machine.counter target]

def Instruction.events (instruction : Instruction) (machine : Machine) :
    List Event :=
  match instruction.operation.performs, instruction.effect machine with
  | some mnemonic, .ok effect => effect.events mnemonic machine
  | _, _ => []

end RegisterMachine

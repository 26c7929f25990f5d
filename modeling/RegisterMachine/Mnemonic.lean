import RegisterMachine.Word

/-!
# Mnemonics

The machine has twelve basic operations: a move, two kinds of arithmetic, a
comparison, the definition of a label, and seven jumps, which differ in the
condition they put on the result of the last comparison.
-/

namespace RegisterMachine

/-- A condition on the sign of the last comparison. -/
inductive Condition where
  | always
  | zero
  | nonzero
  | negative
  | nonpositive
  | positive
  | nonnegative
deriving DecidableEq

namespace Condition

/-- All conditions, the unconditional one first. -/
def all : List Condition :=
  [always, zero, nonzero, negative, nonpositive, positive, nonnegative]

/-- Whether a comparison with the result `flag` meets the condition. -/
def holds (condition : Condition) (flag : Word) : Bool :=
  match condition with
  | always => true
  | zero => flag == 0
  | nonzero => flag != 0
  | negative => flag < 0
  | nonpositive => flag ≤ 0
  | positive => 0 < flag
  | nonnegative => 0 ≤ flag

def jumpName : Condition → Name
  | always => "jmp"
  | zero => "je"
  | nonzero => "jne"
  | negative => "jl"
  | nonpositive => "jle"
  | positive => "jg"
  | nonnegative => "jge"

end Condition

inductive Mnemonic where
  | mov
  | inc
  | dec
  | cmp
  | label
  | jump (condition : Condition)
deriving DecidableEq

namespace Mnemonic

/-- The operations on registers, and the definition of labels. -/
def math : List Mnemonic :=
  [mov, inc, dec, cmp, label]

def jumps : List Mnemonic :=
  Condition.all.map jump

/-- All mnemonics in the order in which the standard operations are declared. -/
def all : List Mnemonic :=
  math ++ jumps

def text : Mnemonic → Name
  | mov => "mov"
  | inc => "inc"
  | dec => "dec"
  | cmp => "cmp"
  | label => "label"
  | jump condition => condition.jumpName

/-- The mnemonic with the name `name`.  Aliases are not mnemonics. -/
def ofText? (name : Name) : Option Mnemonic :=
  all.find? fun mnemonic => mnemonic.text == name

def index (mnemonic : Mnemonic) : Nat :=
  all.idxOf mnemonic

/-- Longer names of the same operation. -/
def aliases : Mnemonic → List Name
  | mov => ["move"]
  | inc => ["increment"]
  | dec => ["decrement"]
  | cmp => ["compare"]
  | label | jump _ => []

theorem mem_all (mnemonic : Mnemonic) : mnemonic ∈ all := by
  cases mnemonic with
  | jump condition => cases condition <;> decide
  | _ => decide

/-- A mnemonic can be read back from its name. -/
@[simp]
theorem ofText?_text (mnemonic : Mnemonic) :
    ofText? mnemonic.text = some mnemonic := by
  cases mnemonic with
  | jump condition => cases condition <;> decide
  | _ => decide

end Mnemonic

end RegisterMachine

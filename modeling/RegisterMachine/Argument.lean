import RegisterMachine.Cell

/-!
# Arguments and arities

An operation is applied to literals, registers and labels.  What an argument
means is up to the operation: arithmetic reads the number in a register, a move
stores the argument itself, and a jump looks a label up.
-/

namespace RegisterMachine

inductive Argument where
  | literal (value : Word)
  | register (name : Name)
  | label (name : Name)
deriving DecidableEq

namespace Argument

/-- The cell that holds an argument as it stands.  A register is held by
identity. -/
def toCell : Argument → Cell
  | literal value => .number value
  | register name => .register name
  | label name => .label name

def registerName? : Argument → Option Name
  | register name => some name
  | literal _ | label _ => none

/-- An argument is written as its number or its bare name. -/
def text : Argument → String
  | literal value => Word.text value
  | register name | label name => name

/-- The text of an operation applied to arguments, such as `mov(ax, 1)`. -/
def applicationText (operation : Name) (arguments : List Argument) : String :=
  operation ++ "(" ++ ", ".intercalate (arguments.map text) ++ ")"

end Argument

/-- The numbers of arguments that an operation takes, both ends included. -/
structure Arity where
  min : Nat
  max : Nat
deriving DecidableEq

namespace Arity

/-- The arity of an operation that takes `count` arguments and no other
number. -/
def exactly (count : Nat) : Arity :=
  ⟨count, count⟩

/-- Whether `given` lies between the ends.  An arity with exchanged ends accepts
nothing. -/
def accepts (arity : Arity) (given : Nat) : Bool :=
  arity.min ≤ given && given ≤ arity.max

/-- The text of an arity: one number, or both ends as in `1 to 2`. -/
def text (arity : Arity) : String :=
  if arity.min = arity.max then toString arity.min
  else toString arity.min ++ " to " ++ toString arity.max

@[simp]
theorem accepts_iff (arity : Arity) (given : Nat) :
    arity.accepts given = true ↔ arity.min ≤ given ∧ given ≤ arity.max := by
  simp [accepts]

@[simp]
theorem exactly_accepts_iff (count given : Nat) :
    (exactly count).accepts given = true ↔ given = count := by
  simp only [accepts_iff, exactly]
  omega

end Arity

end RegisterMachine

import RegisterMachine.Assembly

/-!
# Greatest common divisors

A program for the standard dialect that subtracts the smaller of two positive
numbers from the larger one until they are equal.
-/

namespace RegisterMachine

namespace Euclid

/-- The first operand, and in the end the result. -/
def ax : Argument :=
  .register "ax"

/-- The second operand, and in the end the result too. -/
def bx : Argument :=
  .register "bx"

/-- The program for two operands.  Both have to be positive, or it runs
forever. -/
def program (first second : Word) : List Invocation :=
  [⟨"mov", [ax, .literal first]⟩,
    ⟨"mov", [bx, .literal second]⟩,
    ⟨"label", [.label "cycle"]⟩,
    ⟨"cmp", [ax, bx]⟩,
    ⟨"je", [.label "finish"]⟩,
    ⟨"jl", [.label "asmaller"]⟩,
    ⟨"dec", [ax, bx]⟩,
    ⟨"jmp", [.label "cycle"]⟩,
    ⟨"label", [.label "asmaller"]⟩,
    ⟨"dec", [bx, ax]⟩,
    ⟨"jmp", [.label "cycle"]⟩,
    ⟨"label", [.label "finish"]⟩]

/-- A number of steps in which the program ends on positive operands: at most
five for each subtraction and four more, and every subtraction makes the sum of
the operands smaller. -/
def budget (first second : Word) : Nat :=
  5 * (first.toNatClampNeg + second.toNatClampNeg)

end Euclid

end RegisterMachine

import RegisterMachine.Fault

/-!
# The instruction counter

The counter holds the address of the next instruction.  The machine advances it
after every instruction, a taken jump included, so a jump sets the counter to
the address *before* the instruction it leads to.  The lowest such target is
`-1`; a program ends when the counter leaves the instruction table.
-/

namespace RegisterMachine

structure Counter where
  address : Word
deriving DecidableEq

namespace Counter

def start : Counter :=
  ⟨0⟩

/-- The target in front of the first instruction. -/
def lowestTarget : Word :=
  -1

/-- The position of the counter in a table of `size` instructions, or nothing
when the counter is outside the table. -/
def index? (counter : Counter) (size : Nat) : Option Nat :=
  if 0 ≤ counter.address ∧ counter.address.toNatClampNeg < size then
    some counter.address.toNatClampNeg
  else
    none

/-- The counter after a jump to `target`, which must not lie before the lowest
target. -/
def jump (target : Word) : Except Fault Counter :=
  if target < lowestTarget then .error (.invalidAddress target)
  else .ok ⟨target⟩

/-- The counter one address further.  The highest word is followed by the
lowest. -/
def advance (counter : Counter) : Counter :=
  ⟨counter.address + 1⟩

/-- The text of a counter, such as `PC[3]`. -/
def text (counter : Counter) : String :=
  "PC[" ++ Word.text counter.address ++ "]"

theorem nonnegative_iff (counter : Counter) :
    0 ≤ counter.address ↔ 0 ≤ counter.address.toInt :=
  Int64.le_iff_toInt_le

theorem toNatClampNeg_address (counter : Counter) :
    counter.address.toNatClampNeg = counter.address.toInt.toNat :=
  rfl

/-- The counter is at an instruction exactly when its address is the position of
that instruction. -/
theorem index?_eq_some_iff {counter : Counter} {size index : Nat} :
    counter.index? size = some index ↔
      counter.address.toInt = index ∧ index < size := by
  simp only [index?, nonnegative_iff, toNatClampNeg_address,
    Option.ite_none_right_eq_some, Option.some.injEq]
  omega

/-- The counter is outside the table exactly when its address lies before the
start or after the last instruction. -/
theorem index?_eq_none_iff {counter : Counter} {size : Nat} :
    counter.index? size = none ↔
      counter.address.toInt < 0 ∨ (size : Int) ≤ counter.address.toInt := by
  simp only [index?, nonnegative_iff, toNatClampNeg_address,
    ite_eq_right_iff, reduceCtorEq, imp_false]
  omega

end Counter

end RegisterMachine

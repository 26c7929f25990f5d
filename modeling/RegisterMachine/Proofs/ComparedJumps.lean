import RegisterMachine.Proofs.OperationRules

/-!
# What jumps make of a comparison

A comparison records the difference of two words, and a conditional jump looks
at its sign.  The difference wraps around when it needs more than 64 bits.  It
is zero for equal words only, so tests of equality are always right.  But a
difference that wraps has the opposite sign, so beyond 64 bits each of the jumps
that test an order decides the opposite of what its name says.
-/

namespace RegisterMachine

namespace Word

/-- The difference of two words is a word. -/
def DifferenceFits (first second : Word) : Prop :=
  -2 ^ 63 ≤ first.toInt - second.toInt ∧ first.toInt - second.toInt < 2 ^ 63

instance (first second : Word) : Decidable (DifferenceFits first second) :=
  inferInstanceAs (Decidable (_ ∧ _))

/-- A difference of words that does not fit wraps around once. -/
theorem toInt_sub_cases (first second : Word) :
    DifferenceFits first second ∧
        (first - second).toInt = first.toInt - second.toInt ∨
      2 ^ 63 ≤ first.toInt - second.toInt ∧
        (first - second).toInt = first.toInt - second.toInt - 2 ^ 64 ∨
      first.toInt - second.toInt < -2 ^ 63 ∧
        (first - second).toInt = first.toInt - second.toInt + 2 ^ 64 := by
  have firstLower := Int64.le_toInt first
  have firstUpper := Int64.toInt_lt first
  have secondLower := Int64.le_toInt second
  have secondUpper := Int64.toInt_lt second
  rw [DifferenceFits, Int64.toInt_sub, Int.bmod_eq_emod]
  split <;> omega

end Word

namespace Condition

/-- What the name of a jump behind a comparison says about the operands. -/
def Compares (condition : Condition) (first second : Word) : Prop :=
  match condition with
  | always => True
  | zero => first = second
  | nonzero => first ≠ second
  | negative => first < second
  | nonpositive => first ≤ second
  | positive => first > second
  | nonnegative => first ≥ second

instance (condition : Condition) (first second : Word) :
    Decidable (condition.Compares first second) :=
  match condition with
  | always => inferInstanceAs (Decidable True)
  | zero => inferInstanceAs (Decidable (first = second))
  | nonzero => inferInstanceAs (Decidable (first ≠ second))
  | negative => inferInstanceAs (Decidable (first < second))
  | nonpositive => inferInstanceAs (Decidable (first ≤ second))
  | positive => inferInstanceAs (Decidable (first > second))
  | nonnegative => inferInstanceAs (Decidable (first ≥ second))

/-- The conditions of the jumps that test an order. -/
def orders : List Condition :=
  [negative, nonpositive, positive, nonnegative]

/-- A condition on a difference says the right thing about the operands, unless
it tests their order and the difference does not fit: then it says the
opposite. -/
theorem holds_sub_iff (condition : Condition) (first second : Word) :
    condition.holds (first - second) = true ↔
      (condition.Compares first second ↔
        (condition ∈ orders → Word.DifferenceFits first second)) := by
  have zero : (0 : Word).toInt = 0 := by decide
  have firstLower := Int64.le_toInt first
  have firstUpper := Int64.toInt_lt first
  have secondLower := Int64.le_toInt second
  have secondUpper := Int64.toInt_lt second
  have wrapped := Word.toInt_sub_cases first second
  rw [Word.DifferenceFits] at wrapped ⊢
  -- From here on the difference is a word whose value is told by the cases.
  generalize first - second = difference at wrapped ⊢
  cases condition <;>
    simp [holds, Compares, orders, Int64.lt_iff_toInt_lt, Int64.le_iff_toInt_le,
      ← Int64.toInt_inj, zero] <;> omega

end Condition

namespace Machine

/-- A jump with this condition goes to the target of its argument, or fails for
want of a target. -/
def Takes (machine : Machine) (condition : Condition) (argument : Argument) :
    Prop :=
  (Mnemonic.jump condition).effect machine [argument] =
    (machine.target argument).map Effect.goto

theorem takes_iff {machine : Machine} {condition : Condition}
    {argument : Argument} :
    machine.Takes condition argument ↔
      condition.holds machine.comparison = true := by
  rw [Takes, Mnemonic.effect, Mnemonic.jumpEffect]
  cases condition.holds machine.comparison with
  | true => simp
  | false => cases machine.target argument <;> simp [Except.map]

/-- A jump that is taken sets the counter to its target if it can, and one that
is not taken does nothing. -/
theorem execute_jump (machine : Machine) (condition : Condition)
    (argument : Argument) :
    (machine.Takes condition argument →
        (Mnemonic.jump condition).execute [argument] machine =
          Effect.carryOut ((machine.target argument).map .goto) machine) ∧
      (¬ machine.Takes condition argument →
        (Mnemonic.jump condition).execute [argument] machine =
          .done machine) := by
  constructor
  · intro takes
    rw [Mnemonic.execute, takes]
  · intro staysHere
    rw [takes_iff, Bool.not_eq_true] at staysHere
    rw [Mnemonic.execute, Mnemonic.effect, Mnemonic.jumpEffect, staysHere]
    rfl

/-- A machine that has come to a jump goes on behind the target of the jump if
the jump is taken, and behind the jump itself if not. -/
theorem step_at_jump {machine : Machine} {condition : Condition}
    {argument : Argument}
    (fetched : machine.fetch? =
      some ⟨.ofMnemonic (.jump condition), [argument]⟩) :
    (machine.Takes condition argument → ∀ target,
        machine.target argument = .ok target → -1 ≤ target.toInt →
          machine.step =
            some (.done { machine with counter := ⟨target + 1⟩ })) ∧
      (¬ machine.Takes condition argument →
        machine.step = some (.done
          { machine with counter := ⟨machine.counter.address + 1⟩ })) := by
  rw [takes_iff]
  constructor
  · intro taken target leads notBefore
    have allowed : Counter.jump target = .ok ⟨target⟩ :=
      Counter.jump_of_le notBefore
    exact step_of_jump_taken fetched leads allowed taken
  · exact step_of_jump_not_taken fetched

/-- A comparison records the difference of the number in its register and the
amount. -/
theorem execute_cmp {machine : Machine} {name : Name} {amount : Option Argument}
    {first second : Word} (reads : machine.read? name = some (.number first))
    (resolves : machine.registers.amount amount = .ok second) :
    Mnemonic.cmp.execute (.register name :: amount.toList) machine =
      .done (machine.setComparison (first - second)) := by
  rw [Mnemonic.execute, Mnemonic.effect_eq_ok_iff.2 (.cmp reads resolves)]
  rfl

/-- A comparison of a number in a register with an amount succeeds.  The tests
of equality behind it, and the unconditional jump, decide what their names say.
The tests of an order do so too if the difference of the operands fits into a
word; otherwise each of them decides the opposite.  A comparison is valid for as
long as the registers stay the same.  A jump that is taken leads behind its
target, and one that is not leads behind itself. -/
theorem comparison_decides_jumps {machine : Machine} {name : Name}
    {amount : Option Argument} {first second : Word}
    (reads : machine.read? name = some (.number first))
    (resolves : machine.registers.amount amount = .ok second) :
    ∃ compared,
      Mnemonic.cmp.execute (.register name :: amount.toList) machine =
          .done compared ∧
        ∀ later : Machine, later.registers = compared.registers →
          ∀ argument,
            (∀ condition ∉ Condition.orders,
              (later.Takes condition argument ↔
                condition.Compares first second)) ∧
            (Word.DifferenceFits first second → ∀ condition,
              (later.Takes condition argument ↔
                condition.Compares first second)) ∧
            (¬ Word.DifferenceFits first second →
              ∀ condition ∈ Condition.orders,
                (later.Takes condition argument ↔
                  ¬ condition.Compares first second)) ∧
            ∀ condition,
              (later.Takes condition argument →
                (Mnemonic.jump condition).execute [argument] later =
                  Effect.carryOut ((later.target argument).map .goto) later) ∧
              (¬ later.Takes condition argument →
                (Mnemonic.jump condition).execute [argument] later =
                  .done later) ∧
              (later.fetch? =
                  some ⟨.ofMnemonic (.jump condition), [argument]⟩ →
                (later.Takes condition argument → ∀ target,
                    later.target argument = .ok target → -1 ≤ target.toInt →
                      later.step =
                        some (.done { later with counter := ⟨target + 1⟩ })) ∧
                  (¬ later.Takes condition argument →
                    later.step = some (.done
                      { later with
                        counter := ⟨later.counter.address + 1⟩ }))) := by
  refine ⟨_, execute_cmp reads resolves, ?_⟩
  intro later sameRegisters argument
  have recorded : later.comparison = first - second := by
    rw [comparison, read?, sameRegisters]
    exact comparison_setComparison machine (first - second)
  have decides (condition : Condition) :
      later.Takes condition argument ↔
        (condition.Compares first second ↔
          (condition ∈ Condition.orders →
            Word.DifferenceFits first second)) := by
    rw [takes_iff, recorded, Condition.holds_sub_iff]
  refine ⟨?equality, ?fits, ?wraps, ?jumps⟩
  case equality =>
    intro condition noOrder
    simp [decides, noOrder]
  case fits =>
    intro fits condition
    simp [decides, fits]
  case wraps =>
    intro wraps condition isOrder
    simp [decides, wraps, isOrder]
  case jumps =>
    intro condition
    obtain ⟨taken, notTaken⟩ := later.execute_jump condition argument
    exact ⟨taken, notTaken, step_at_jump⟩

/-- The highest word is found to be less than minus one, and not greater. -/
theorem highest_compares_below_minus_one :
    ∃ compared,
      Mnemonic.cmp.execute [.register "ax", .register "bx"]
          (ofRegisters []
            [⟨"ax", .number Int64.maxValue⟩, ⟨"bx", .number (-1)⟩]) =
          .done compared ∧
        compared.Takes .negative (.literal 7) ∧
        ¬ compared.Takes .positive (.literal 7) ∧
        compared.Takes .nonzero (.literal 7) := by
  have reads :
      (ofRegisters [] [⟨"ax", .number Int64.maxValue⟩,
        ⟨"bx", .number (-1)⟩]).read? "ax" = some (.number Int64.maxValue) := by
    decide
  have resolves :
      (ofRegisters [] [⟨"ax", .number Int64.maxValue⟩,
        ⟨"bx", .number (-1)⟩]).registers.amount (some (.register "bx")) =
          .ok (-1) := by
    decide
  have wraps : ¬ Word.DifferenceFits Int64.maxValue (-1) := by decide
  obtain ⟨compared, done, decides⟩ := comparison_decides_jumps reads resolves
  obtain ⟨equality, _, opposite, _⟩ := decides compared rfl (.literal 7)
  refine ⟨compared, done, ?_, ?_, ?_⟩
  · exact (opposite wraps .negative (by decide)).2 (by decide)
  · rw [opposite wraps .positive (by decide), Decidable.not_not]
    decide
  · exact (equality .nonzero (by decide)).2 (by decide)

end Machine

end RegisterMachine

import Mathlib.Data.Int.ModEq
import RegisterMachine.Proofs.ReferenceAssembly
import RegisterMachine.Proofs.Step

/-!
# Products on the machine

The program adds its first operand once in each round and counts the second one
down to zero, which it tests after the first round only.  Words wrap around, so
every second operand is counted down to zero in the end: a positive one in as
many rounds as it says, and zero or a negative one past the lowest word.  As
many rounds have the product as their sum, modulo `2 ^ 64`.
-/

namespace RegisterMachine

namespace Product

open Program

def program (first second : Word) : List Invocation :=
  [⟨"mov", [.register "bx", .literal first]⟩,
    ⟨"mov", [.register "cx", .literal second]⟩,
    ⟨"label", [.label "again"]⟩,
    ⟨"inc", [.register "ax", .register "bx"]⟩,
    ⟨"dec", [.register "cx"]⟩,
    ⟨"cmp", [.register "cx", .literal 0]⟩,
    ⟨"jne", [.label "again"]⟩]

/-- The number of rounds in which a word is counted down to zero: the number
between `1` and `2 ^ 64` that is congruent to it. -/
def rounds (word : Word) : Nat :=
  ((word.toInt - 1) % 2 ^ 64).toNat + 1

theorem rounds_pos (word : Word) : 0 < rounds word :=
  Nat.succ_pos _

theorem rounds_le (word : Word) : rounds word ≤ 2 ^ 64 := by
  rw [rounds]
  omega

/-- A word that is not positive takes at least half of all words to count
down. -/
theorem le_rounds {word : Word} (notPositive : word ≤ 0) :
    2 ^ 63 ≤ rounds word := by
  have zero : (0 : Word).toInt = 0 := by decide
  have lower := Int64.le_toInt word
  rw [Int64.le_iff_toInt_le, zero] at notPositive
  rw [rounds]
  omega

theorem rounds_modEq (word : Word) :
    (rounds word : Int) ≡ word.toInt [ZMOD 2 ^ 64] := by
  rw [Int.ModEq, rounds]
  omega

/-- Numbers that are congruent modulo `2 ^ 64` are the same words. -/
theorem ofNat_eq_of_modEq {number : Nat} {word : Word}
    (congruent : (number : Int) ≡ word.toInt [ZMOD 2 ^ 64]) :
    Int64.ofNat number = word := by
  have lower := Int64.le_toInt word
  have upper := Int64.toInt_lt word
  rw [← Int64.ofInt_eq_ofNat, Int64.ofInt_eq_iff_bmod_eq_toInt,
    Int.bmod_eq_emod]
  rw [Int.ModEq] at congruent
  split <;> omega

theorem ofNat_ne_zero {number : Nat} (positive : 0 < number)
    (small : number < 2 ^ 64) : (Int64.ofNat number : Word) ≠ 0 := by
  intro isZero
  have value := congrArg Int64.toInt isZero
  have zero : (0 : Word).toInt = 0 := by decide
  rw [← Int64.ofInt_eq_ofNat, Int64.toInt_ofInt, Int64.size, zero,
    Int.bmod_eq_emod] at value
  split at value <;> omega

/-- The machine that runs the program, with its counter at `address`. -/
def state (first second address ax bx cx flag : Word) : Machine where
  instructions := (instructions (program first second)).toArray
  counter := ⟨address⟩
  registers :=
    ⟨[⟨"ax", .number ax⟩, ⟨"bx", .number bx⟩, ⟨"cx", .number cx⟩, .zero "dx",
      ⟨comparisonRegister, .number flag⟩,
      ⟨labelRegister, .labels (labelTable (program first second))⟩]⟩

variable (first second : Word) {x y flag : Word}

theorem assembleBy_program (submission : Submission) :
    Dialect.standard.assembleBy submission (program first second) =
      .ok (state first second 0 0 0 0 0) := by
  cases submission <;> rfl

theorem get?_again :
    (labelTable (program first second)).get? "again" = some 1 :=
  get?_labelTable_of_position 3 2 rfl rfl

/-- The two moves come first. -/
theorem run_moves (budget : Nat) :
    (state first second 0 0 0 0 0).run (budget + 2) =
      (state first second 2 0 first second 0).run budget := by
  have firstMove : (state first second 0 0 0 0 0).step =
      some (.done (state first second 1 0 first 0 0)) := rfl
  have secondMove : (state first second 1 0 first 0 0).step =
      some (.done (state first second 2 0 first second 0)) := rfl
  rw [Machine.run_of_step _ firstMove, Machine.run_of_step _ secondMove]

theorem step_inc : (state first second 2 x first y flag).step =
    some (.done (state first second 3 (x + first) first y flag)) :=
  rfl

theorem step_dec : (state first second 3 x first y flag).step =
    some (.done (state first second 4 x first (y - 1) flag)) :=
  rfl

theorem step_cmp : (state first second 4 x first y flag).step =
    some (.done (state first second 5 x first y y)) := by
  have worked : Instruction.effect
      ⟨.ofMnemonic .cmp, [.register "cx", .literal 0]⟩
      (state first second 4 x first y flag) = .ok (.compare (y - 0)) := rfl
  rw [Int64.sub_zero] at worked
  exact Machine.step_of_effect rfl worked rfl

theorem step_jne_taken (different : flag ≠ 0) :
    (state first second 5 x first y flag).step =
      some (.done (state first second 2 x first y flag)) := by
  have leads : (state first second 5 x first y flag).target (.label "again") =
      .ok 1 := by
    have labels : (state first second 5 x first y flag).labels? =
        some (labelTable (program first second)) := rfl
    rw [Machine.target, labels, Option.bind_some, get?_again]
  have taken : Condition.nonzero.holds flag = true := by
    simpa [Condition.holds] using different
  exact Machine.step_of_jump_taken rfl leads rfl taken

theorem step_jne_not_taken : (state first second 5 x first y 0).step =
    some (.done (state first second 6 x first y 0)) := by
  have notTaken : ¬ Condition.nonzero.holds 0 = true := by decide
  exact Machine.step_of_jump_not_taken rfl notTaken

/-- One round, up to its jump. -/
theorem run_to_jump (budget : Nat) :
    (state first second 2 x first y flag).run (budget + 3) =
      (state first second 5 (x + first) first (y - 1) (y - 1)).run budget := by
  rw [Machine.run_of_step _ (step_inc first second),
    Machine.run_of_step _ (step_dec first second),
    Machine.run_of_step _ (step_cmp first second)]

/-- While the count is not used up, rounds follow each other.  Each of them adds
the first operand once and takes one from the count. -/
theorem run_rounds {left : Nat} (remains : 0 < left) (done : Nat)
    (small : done + left ≤ 2 ^ 64) :
    ∃ later, (state first second 2 x first (.ofNat (done + left)) flag).run
        (4 * done) =
      .paused (state first second 2 (x + first * .ofNat done) first
        (.ofNat left) later) := by
  induction done generalizing x flag with
  | zero =>
    refine ⟨flag, ?_⟩
    have nothing : x + first * Int64.ofNat 0 = x := by
      have zero : Int64.ofNat 0 = 0 := rfl
      rw [zero, Int64.mul_zero, Int64.add_zero]
    rw [Nat.mul_zero, Machine.run, nothing, Nat.zero_add]
  | succ done induction =>
    have counted : Int64.ofNat (done + 1 + left) - 1 =
        Int64.ofNat (done + left) := by
      rw [Nat.add_right_comm, Int64.ofNat_add]
      exact Int64.add_sub_cancel _ _
    have unfinished : Int64.ofNat (done + left) ≠ 0 :=
      ofNat_ne_zero (by omega) (by omega)
    have added : x + first + first * Int64.ofNat done =
        x + first * Int64.ofNat (done + 1) := by
      have one : Int64.ofNat 1 = 1 := rfl
      rw [Nat.add_comm done, Int64.ofNat_add, one, Int64.mul_add,
        Int64.mul_one, Int64.add_assoc]
    have length : 4 * (done + 1) = 4 * done + 1 + 3 := by omega
    rw [length, run_to_jump, counted,
      Machine.run_of_step _ (step_jne_taken first second unfinished), ← added]
    exact induction (by omega)

/-- The last round counts down to zero. -/
theorem run_last_round :
    (state first second 2 x first 1 flag).run 4 =
      .paused (state first second 6 (x + first) first 0 0) := by
  rw [run_to_jump first second 1, Int64.sub_self,
    Machine.run_of_step _ (step_jne_not_taken first second), Machine.run]

/-- After some rounds, as long as a round is left, the sum holds the first
operand as many times, and the count is smaller by as much. -/
theorem run_passes {done : Nat} (unfinished : done < rounds second) :
    ∃ later, (state first second 0 0 0 0 0).run (2 + 4 * done) =
      .paused (state first second 2 (first * .ofNat done) first
        (second - .ofNat done) later) := by
  obtain ⟨left, total⟩ := Nat.exists_eq_add_of_lt unfinished
  have start : Int64.ofNat (done + (left + 1)) = second := by
    rw [← Nat.add_assoc, ← total]
    exact ofNat_eq_of_modEq (rounds_modEq second)
  have count : Int64.ofNat (left + 1) = second - Int64.ofNat done := by
    rw [← start, Int64.ofNat_add done, Int64.add_comm]
    exact (Int64.add_sub_cancel _ _).symm
  have small : done + (left + 1) ≤ 2 ^ 64 := by
    rw [← Nat.add_assoc, ← total]
    exact rounds_le second
  obtain ⟨later, pauses⟩ : ∃ later,
      (state first second 2 0 first (.ofNat (done + (left + 1))) 0).run
          (4 * done) =
        .paused (state first second 2 (0 + first * .ofNat done) first
          (.ofNat (left + 1)) later) :=
    run_rounds first second (Nat.succ_pos left) done small
  rw [start, count, Int64.zero_add] at pauses
  rw [Nat.add_comm, run_moves]
  exact ⟨later, pauses⟩

theorem run_all_rounds :
    (state first second 0 0 0 0 0).run (2 + 4 * rounds second) =
      .paused (state first second 6 (first * second) first 0 0) := by
  obtain ⟨done, total⟩ := Nat.exists_eq_add_of_lt (rounds_pos second)
  rw [Nat.zero_add] at total
  have counted : Int64.ofNat done + 1 = second := by
    have asSum : Int64.ofNat (done + 1) = Int64.ofNat done + 1 :=
      Int64.ofNat_add done 1
    rw [← asSum, ← total]
    exact ofNat_eq_of_modEq (rounds_modEq second)
  have left : second - Int64.ofNat done = 1 := by
    rw [← counted, Int64.add_comm, Int64.add_sub_cancel]
  have product : first * Int64.ofNat done + first = first * second := by
    rw [← counted, Int64.mul_add, Int64.mul_one]
  have unfinished : done < rounds second := by omega
  obtain ⟨later, pauses⟩ := run_passes first second unfinished
  have length : 2 + 4 * rounds second = 2 + 4 * done + 4 := by omega
  rw [length, Machine.run_add 4 pauses, left, run_last_round, product]

/-- A count that is not positive goes from the lowest word to the highest one in
one of its rounds. -/
theorem exists_wrap (notPositive : second ≤ 0) :
    ∃ attempt ∈
        (state first second 0 0 0 0 0).attempts (2 + 4 * rounds second),
      attempt.before.read? "cx" = some (.number Int64.minValue) ∧
        ∃ after, attempt.outcome = .done after ∧
          after.read? "cx" = some (.number Int64.maxValue) := by
  obtain ⟨done, total⟩ := Nat.exists_eq_add_of_le' (le_rounds notPositive)
  have lowest : second - Int64.ofNat done = Int64.minValue := by
    have start := ofNat_eq_of_modEq (rounds_modEq second)
    have half : Int64.ofNat (2 ^ 63) = Int64.minValue := by decide
    rw [← start, total, Int64.ofNat_add, half, Int64.add_comm]
    exact Int64.add_sub_cancel _ _
  have unfinished : done < rounds second := by omega
  obtain ⟨later, pauses⟩ := run_passes first second unfinished
  rw [lowest] at pauses
  have incremented : (state first second 0 0 0 0 0).run (2 + 4 * done + 1) =
      .paused (state first second 3 (first * .ofNat done + first) first
        Int64.minValue later) := by
    rw [Machine.run_add 1 pauses, Machine.run_of_step 0 (step_inc first second),
      Machine.run]
  refine ⟨⟨_, .ofMnemonic .dec, [.register "cx"]⟩,
    Machine.mem_attempts_iff.2 ⟨_, ?_, _, incremented, rfl⟩, rfl, _, rfl, rfl⟩
  omega

/-- What the machine that holds the program makes of its operands: it takes that
number of steps and stops behind the program with their product, and it adds the
first operand once in each round.  When the second operand is not positive, its
count wraps around. -/
structure Multiplies (machine final : Machine) : Prop where
  rounds : 1 ≤ rounds second ∧ rounds second ≤ 2 ^ 64 ∧
    (rounds second : Int) ≡ second.toInt [ZMOD 2 ^ 64]
  pauses : machine.run (2 + 4 * Product.rounds second) = .paused final
  halts : ∀ budget, 2 + 4 * Product.rounds second < budget →
    machine.run budget = .halted final ∧
      (machine.attempts budget).length = 2 + 4 * Product.rounds second
  results : ∃ product : Word,
    product.toInt ≡ first.toInt * second.toInt [ZMOD 2 ^ 64] ∧
      Dialect.standard.results final =
        [.number product, .number first, .number 0, .number 0]
  passes : ∀ done < Product.rounds second, ∃ paused,
    machine.run (2 + 4 * done) = .paused paused ∧
      paused.read? "ax" = some (.number (first * .ofNat done)) ∧
      paused.read? "cx" = some (.number (second - .ofNat done))
  wraps : second ≤ 0 →
    ∃ attempt ∈ machine.attempts (2 + 4 * Product.rounds second),
      attempt.before.read? "cx" = some (.number Int64.minValue) ∧
        ∃ after, attempt.outcome = .done after ∧
          after.read? "cx" = some (.number Int64.maxValue)

/-- The program multiplies all words by repeated addition.  It is always
assembled, and it ends after four steps for each round and two more, without a
fault. -/
theorem program_multiplies :
    ∃ machine final, Multiplies first second machine final ∧
      ∀ submission,
        Dialect.standard.assembleBy submission (program first second) =
            .ok machine ∧
          ∀ budget, 2 + 4 * rounds second < budget →
            Dialect.standard.run submission budget (program first second) =
              .results (Dialect.standard.results final) := by
  have pauses := run_all_rounds first second
  have ends : (state first second 6 (first * second) first 0 0).fetch? = none :=
    rfl
  refine ⟨state first second 0 0 0 0 0,
    state first second 6 (first * second) first 0 0, ?multiplies,
    fun submission => ⟨assembleBy_program first second submission, ?reports⟩⟩
  case multiplies =>
    refine ⟨⟨rounds_pos second, rounds_le second, rounds_modEq second⟩, pauses,
      fun budget enough => Machine.halts_after pauses ends enough,
      ⟨first * second, ?_, rfl⟩, ?_, exists_wrap first second⟩
    · rw [Int64.toInt_mul]
      exact Int.bmod_emod
    · intro done unfinished
      obtain ⟨later, pausesBetween⟩ := run_passes first second unfinished
      exact ⟨_, pausesBetween, rfl, rfl⟩
  case reports =>
    intro budget enough
    obtain ⟨halts, _⟩ := Machine.halts_after pauses ends enough
    simp only [Dialect.run, assembleBy_program, halts, Dialect.report]

/-- Seven is counted down in seven rounds, and zero in as many as there are
words. -/
theorem multiplies_by_seven_and_by_zero :
    (∃ machine final, Multiplies 6 7 machine final ∧
        machine.run 30 = .paused final ∧
        Dialect.standard.run .direct 31 (program 6 7) =
          .results [.number 42, .number 6, .number 0, .number 0]) ∧
      ∃ machine final, Multiplies 6 0 machine final ∧
        machine.run (2 + 4 * 2 ^ 64) = .paused final := by
  obtain ⟨machine, final, multiplies, _⟩ := program_multiplies 6 7
  obtain ⟨zeroMachine, zeroFinal, multipliesByZero, _⟩ := program_multiplies 6 0
  have pauses := multiplies.pauses
  have pausesAtZero := multipliesByZero.pauses
  have seven : rounds 7 = 7 := by decide
  have zero : rounds 0 = 2 ^ 64 := by decide
  rw [seven] at pauses
  rw [zero] at pausesAtZero
  exact ⟨⟨machine, final, multiplies, pauses, rfl⟩,
    zeroMachine, zeroFinal, multipliesByZero, pausesAtZero⟩

end Product

end RegisterMachine

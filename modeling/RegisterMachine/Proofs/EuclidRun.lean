import RegisterMachine.CommandLine
import RegisterMachine.Proofs.ReferenceAssembly
import RegisterMachine.Proofs.Step

/-!
# Greatest common divisors on the machine

The program subtracts the smaller of two numbers from the larger one until they
are equal.  Each subtraction takes five steps and leads back to the comparison
at address 2, so a run follows Euclid's algorithm on the two registers, and the
number of its steps is told by the number of subtractions.
-/

namespace RegisterMachine

namespace Word

theorem pos_iff {word : Word} : 0 < word ↔ 0 < word.toInt := by
  have zero : (0 : Word).toInt = 0 := by decide
  rw [Int64.lt_iff_toInt_lt, zero]

/-- The difference of two positive words does not wrap. -/
theorem toInt_sub_of_pos {first second : Word} (firstPositive : 0 < first)
    (secondPositive : 0 < second) :
    (first - second).toInt = first.toInt - second.toInt := by
  have firstBound := Int64.toInt_lt first
  have secondBound := Int64.toInt_lt second
  rw [pos_iff] at firstPositive secondPositive
  rw [Int64.toInt_sub]
  exact Int.bmod_eq_of_le (by omega) (by omega)

/-- The sign of the difference of two positive words compares them. -/
theorem sub_pos_iff {first second : Word} (firstPositive : 0 < first)
    (secondPositive : 0 < second) : 0 < first - second ↔ second < first := by
  rw [pos_iff, toInt_sub_of_pos firstPositive secondPositive,
    Int64.lt_iff_toInt_lt]
  omega

theorem sub_neg_iff {first second : Word} (firstPositive : 0 < first)
    (secondPositive : 0 < second) : first - second < 0 ↔ first < second := by
  have zero : (0 : Word).toInt = 0 := by decide
  rw [Int64.lt_iff_toInt_lt, toInt_sub_of_pos firstPositive secondPositive,
    Int64.lt_iff_toInt_lt, zero]
  omega

theorem ofNat_pos {number : Nat} (positive : 0 < number)
    (small : number < 2 ^ 63) : 0 < (Int64.ofNat number : Word) := by
  rw [pos_iff, Int64.toInt_ofNat_of_lt small]
  omega

end Word

namespace Euclid

open Program

/-- The number of subtractions that Euclid's algorithm makes on two positive
numbers. -/
def subtractions (first second : Nat) : Nat :=
  if first = 0 ∨ second = 0 ∨ first = second then 0
  else if second < first then subtractions (first - second) second + 1
  else subtractions first (second - first) + 1
termination_by first + second

theorem subtractions_add_two_le {first second : Nat} (firstPositive : 0 < first)
    (secondPositive : 0 < second) :
    subtractions first second + 2 ≤ first + second := by
  fun_induction subtractions first second with
  | case1 first second finished => omega
  | case2 first second unfinished greater induction =>
    have smaller := induction (by omega) secondPositive
    omega
  | case3 first second unfinished notGreater induction =>
    have smaller := induction firstPositive (by omega)
    omega

/-- The machine that runs the program, with its counter at `address`. -/
def state (first second address ax bx flag : Word) : Machine where
  instructions := (instructions (program first second)).toArray
  counter := ⟨address⟩
  registers :=
    ⟨[⟨"ax", .number ax⟩, ⟨"bx", .number bx⟩, .zero "cx", .zero "dx",
      ⟨comparisonRegister, .number flag⟩,
      ⟨labelRegister, .labels (labelTable (program first second))⟩]⟩

variable (first second : Word) {address x y flag : Word}

theorem assemble_program :
    Dialect.standard.assemble (program first second) =
      .ok (state first second 0 0 0 0) :=
  rfl

theorem get?_cycle :
    (labelTable (program first second)).get? "cycle" = some 1 :=
  get?_labelTable_of_position 3 2 rfl rfl

theorem get?_asmaller :
    (labelTable (program first second)).get? "asmaller" = some 6 :=
  get?_labelTable_of_position 9 7 rfl rfl

theorem get?_finish :
    (labelTable (program first second)).get? "finish" = some 8 :=
  get?_labelTable_of_position 12 9 rfl rfl

theorem step_jump_taken {condition : Condition} {label : Name} {target : Word}
    (fetched : (state first second address x y flag).fetch? =
      some ⟨.ofMnemonic (.jump condition), [.label label]⟩)
    (found : (labelTable (program first second)).get? label = some target)
    (allowed : Counter.jump target = .ok ⟨target⟩)
    (taken : condition.holds flag) :
    (state first second address x y flag).step =
      some (.done (state first second (target + 1) x y flag)) := by
  have leads : (state first second address x y flag).target (.label label) =
      .ok target := by
    have labels : (state first second address x y flag).labels? =
        some (labelTable (program first second)) := rfl
    rw [Machine.target, labels, Option.bind_some, found]
  exact Machine.step_of_jump_taken fetched leads allowed taken

theorem step_jump_not_taken {condition : Condition} {label : Name}
    (fetched : (state first second address x y flag).fetch? =
      some ⟨.ofMnemonic (.jump condition), [.label label]⟩)
    (notTaken : ¬ condition.holds flag) :
    (state first second address x y flag).step =
      some (.done (state first second (address + 1) x y flag)) :=
  Machine.step_of_jump_not_taken fetched notTaken

theorem step_mov_first : (state first second 0 x y flag).step =
    some (.done (state first second 1 first y flag)) :=
  rfl

theorem step_mov_second : (state first second 1 x y flag).step =
    some (.done (state first second 2 x second flag)) :=
  rfl

theorem step_cmp : (state first second 2 x y flag).step =
    some (.done (state first second 3 x y (x - y))) := by
  have worked : Instruction.effect ⟨.ofMnemonic .cmp, [ax, bx]⟩
      (state first second 2 x y flag) = .ok (.compare (x - y)) := rfl
  exact Machine.step_of_effect rfl worked rfl

theorem step_je_taken : (state first second 3 x y 0).step =
    some (.done (state first second 9 x y 0)) :=
  step_jump_taken first second rfl (get?_finish first second) rfl rfl

theorem step_je_not_taken (different : flag ≠ 0) :
    (state first second 3 x y flag).step =
      some (.done (state first second 4 x y flag)) := by
  have notTaken : ¬ Condition.zero.holds flag := by
    simpa [Condition.holds] using different
  exact step_jump_not_taken first second rfl notTaken

theorem step_jl_taken (negative : flag < 0) :
    (state first second 4 x y flag).step =
      some (.done (state first second 7 x y flag)) := by
  have taken : Condition.negative.holds flag := by
    simpa [Condition.holds] using negative
  exact step_jump_taken first second rfl (get?_asmaller first second) rfl taken

theorem step_jl_not_taken (positive : 0 < flag) :
    (state first second 4 x y flag).step =
      some (.done (state first second 5 x y flag)) := by
  have notTaken : ¬ Condition.negative.holds flag := by
    simpa [Condition.holds] using Int64.le_of_lt positive
  exact step_jump_not_taken first second rfl notTaken

theorem step_dec_first : (state first second 5 x y flag).step =
    some (.done (state first second 6 (x - y) y flag)) :=
  rfl

theorem step_dec_second : (state first second 7 x y flag).step =
    some (.done (state first second 8 x (y - x) flag)) :=
  rfl

theorem step_jmp_first : (state first second 6 x y flag).step =
    some (.done (state first second 2 x y flag)) :=
  step_jump_taken first second rfl (get?_cycle first second) rfl rfl

theorem step_jmp_second : (state first second 8 x y flag).step =
    some (.done (state first second 2 x y flag)) :=
  step_jump_taken first second rfl (get?_cycle first second) rfl rfl

theorem step_finished : (state first second 9 x y flag).step = none :=
  rfl

/-- One subtraction from the first register. -/
theorem run_cycle_of_positive (budget : Nat) (positive : 0 < x - y) :
    (state first second 2 x y flag).run (budget + 5) =
      (state first second 2 (x - y) y (x - y)).run budget := by
  have different : x - y ≠ 0 := by
    intro noDifference
    rw [noDifference] at positive
    exact absurd positive (by decide)
  rw [Machine.run_of_step _ (step_cmp first second),
    Machine.run_of_step _ (step_je_not_taken first second different),
    Machine.run_of_step _ (step_jl_not_taken first second positive),
    Machine.run_of_step _ (step_dec_first first second),
    Machine.run_of_step _ (step_jmp_first first second)]

/-- One subtraction from the second register. -/
theorem run_cycle_of_negative (budget : Nat) (negative : x - y < 0) :
    (state first second 2 x y flag).run (budget + 5) =
      (state first second 2 x (y - x) (x - y)).run budget := by
  have different : x - y ≠ 0 := by
    intro noDifference
    rw [noDifference] at negative
    exact absurd negative (by decide)
  rw [Machine.run_of_step _ (step_cmp first second),
    Machine.run_of_step _ (step_je_not_taken first second different),
    Machine.run_of_step _ (step_jl_taken first second negative),
    Machine.run_of_step _ (step_dec_second first second),
    Machine.run_of_step _ (step_jmp_second first second)]

/-- Equal numbers end the program. -/
theorem run_cycle_of_equal (x flag : Word) :
    (state first second 2 x x flag).run 2 =
      .paused (state first second 9 x x 0) := by
  have compared : (state first second 2 x x flag).step =
      some (.done (state first second 3 x x 0)) := by
    rw [step_cmp, Int64.sub_self]
  rw [Machine.run_of_step _ compared,
    Machine.run_of_step _ (step_je_taken first second), Machine.run]

/-- From the comparison on, the machine does what Euclid's algorithm does. -/
theorem run_of_positive {left right : Nat} (flag : Word)
    (leftPositive : 0 < left) (rightPositive : 0 < right)
    (leftSmall : left < 2 ^ 63) (rightSmall : right < 2 ^ 63) :
    (state first second 2 (.ofNat left) (.ofNat right) flag).run
        (5 * subtractions left right + 2) =
      .paused (state first second 9 (.ofNat (left.gcd right))
        (.ofNat (left.gcd right)) 0) := by
  -- The flag is whatever the comparison before left, so it is generalized.
  fun_induction subtractions left right generalizing flag with
  | case1 left right finished =>
    obtain rfl : left = right := by omega
    rw [Nat.gcd_self]
    exact run_cycle_of_equal first second _ flag
  | case2 left right unfinished greater induction =>
    have difference : Int64.ofNat left - Int64.ofNat right =
        Int64.ofNat (left - right) :=
      (Int64.ofNat_sub left right (by omega)).symm
    have positive : 0 < Int64.ofNat left - Int64.ofNat right := by
      rw [difference]
      exact Word.ofNat_pos (by omega) (by omega)
    have rest := induction (Int64.ofNat (left - right)) (by omega) rightPositive
      (by omega) rightSmall
    have sameDivisor : (left - right).gcd right = left.gcd right :=
      Nat.gcd_sub_self_left (by omega)
    have regroup : 5 * (subtractions (left - right) right + 1) + 2 =
        5 * subtractions (left - right) right + 2 + 5 := by omega
    rw [regroup, run_cycle_of_positive first second _ positive, difference, rest,
      sameDivisor]
  | case3 left right unfinished notGreater induction =>
    have difference : Int64.ofNat right - Int64.ofNat left =
        Int64.ofNat (right - left) :=
      (Int64.ofNat_sub right left (by omega)).symm
    have negative : Int64.ofNat left - Int64.ofNat right < 0 := by
      rw [Word.sub_neg_iff (Word.ofNat_pos leftPositive leftSmall)
        (Word.ofNat_pos rightPositive rightSmall),
        Int64.ofNat_lt_iff_lt leftSmall rightSmall]
      omega
    have rest := induction (Int64.ofNat left - Int64.ofNat right) leftPositive
      (by omega) leftSmall (by omega)
    have sameDivisor : left.gcd (right - left) = left.gcd right :=
      Nat.gcd_sub_self_right (by omega)
    have regroup : 5 * (subtractions left (right - left) + 1) + 2 =
        5 * subtractions left (right - left) + 2 + 5 := by omega
    rw [regroup, run_cycle_of_negative first second _ negative, difference, rest,
      sameDivisor]

/-- When one of the registers is zero, it is subtracted from the other one
forever. -/
theorem paused_of_zero_second (positive : 0 < x) (budget : Nat) :
    ∃ later, (state first second 2 x 0 flag).run budget = .paused later := by
  have unchanged : x - 0 = x := Int64.sub_zero x
  have stays : 0 < x - 0 := by rwa [unchanged]
  have round (machine : Machine)
      (returned : ∃ flag, machine = state first second 2 x 0 flag) :
      ∃ next, (∃ flag, next = state first second 2 x 0 flag) ∧
        ∀ rest, machine.run (rest + 5) = next.run rest := by
    obtain ⟨flag, rfl⟩ := returned
    refine ⟨state first second 2 x 0 x, ⟨x, rfl⟩, ?_⟩
    intro rest
    rw [run_cycle_of_positive first second rest stays, unchanged]
  exact Machine.paused_of_round (by decide) round ⟨flag, rfl⟩ budget

theorem paused_of_zero_first (positive : 0 < y) (budget : Nat) :
    ∃ later, (state first second 2 0 y flag).run budget = .paused later := by
  have unchanged : y - 0 = y := Int64.sub_zero y
  have stays : 0 - y < 0 := by
    have zero : (0 : Word).toInt = 0 := by decide
    have bound := Int64.toInt_lt y
    rw [Word.pos_iff] at positive
    have value : (0 - y).toInt = 0 - y.toInt := by
      rw [Int64.toInt_sub, zero]
      exact Int.bmod_eq_of_le (by omega) (by omega)
    rw [Int64.lt_iff_toInt_lt, value, zero]
    omega
  have round (machine : Machine)
      (returned : ∃ flag, machine = state first second 2 0 y flag) :
      ∃ next, (∃ flag, next = state first second 2 0 y flag) ∧
        ∀ rest, machine.run (rest + 5) = next.run rest := by
    obtain ⟨flag, rfl⟩ := returned
    refine ⟨state first second 2 0 y (0 - y), ⟨0 - y, rfl⟩, ?_⟩
    intro rest
    rw [run_cycle_of_negative first second rest stays, unchanged]
  exact Machine.paused_of_round (by decide) round ⟨flag, rfl⟩ budget

/-- The states from the first comparison on, when the operands are positive.
Both registers stay positive, and a subtraction is made only when the comparison
has found its register to be the larger one. -/
inductive Subtracting : Machine → Prop where
  | compare {x y : Word} (flag : Word) (left : 0 < x) (right : 0 < y) :
      Subtracting (state first second 2 x y flag)
  | compared {x y : Word} (left : 0 < x) (right : 0 < y) :
      Subtracting (state first second 3 x y (x - y))
  | different {x y : Word} (left : 0 < x) (right : 0 < y)
      (unequal : x ≠ y) : Subtracting (state first second 4 x y (x - y))
  | greater {x y : Word} (flag : Word) (left : 0 < x) (right : 0 < y)
      (order : y < x) : Subtracting (state first second 5 x y flag)
  | subtractedFirst {x y : Word} (flag : Word) (left : 0 < x)
      (right : 0 < y) : Subtracting (state first second 6 x y flag)
  | smaller {x y : Word} (flag : Word) (left : 0 < x) (right : 0 < y)
      (order : x < y) : Subtracting (state first second 7 x y flag)
  | subtractedSecond {x y : Word} (flag : Word) (left : 0 < x)
      (right : 0 < y) : Subtracting (state first second 8 x y flag)
  | finished {x : Word} (left : 0 < x) :
      Subtracting (state first second 9 x x 0)

variable {first second : Word} {machine : Machine}

theorem Subtracting.step (subtracting : Subtracting first second machine) :
    machine.step = none ∨ ∃ next, machine.step = some (.done next) ∧
      Subtracting first second next := by
  cases subtracting with
  | compare flag left right =>
    exact .inr ⟨_, step_cmp first second, .compared left right⟩
  | @compared x y left right =>
    right
    by_cases equal : x = y
    · subst equal
      rw [Int64.sub_self]
      exact ⟨_, step_je_taken first second, .finished left⟩
    · have nonzero : x - y ≠ 0 := by
        intro noDifference
        rw [Int64.sub_eq_iff_eq_add, Int64.zero_add] at noDifference
        exact equal noDifference
      exact ⟨_, step_je_not_taken first second nonzero,
        .different left right equal⟩
  | @different x y left right unequal =>
    right
    rcases Int64.lt_or_lt_of_ne unequal with less | more
    · have negative := (Word.sub_neg_iff left right).2 less
      exact ⟨_, step_jl_taken first second negative,
        .smaller _ left right less⟩
    · have positive := (Word.sub_pos_iff left right).2 more
      exact ⟨_, step_jl_not_taken first second positive,
        .greater _ left right more⟩
  | greater flag left right order =>
    have positive := (Word.sub_pos_iff left right).2 order
    exact .inr ⟨_, step_dec_first first second,
      .subtractedFirst flag positive right⟩
  | subtractedFirst flag left right =>
    exact .inr ⟨_, step_jmp_first first second, .compare flag left right⟩
  | smaller flag left right order =>
    have positive := (Word.sub_pos_iff right left).2 order
    exact .inr ⟨_, step_dec_second first second,
      .subtractedSecond flag left positive⟩
  | subtractedSecond flag left right =>
    exact .inr ⟨_, step_jmp_second first second, .compare flag left right⟩
  | finished left => exact .inl (step_finished first second)

theorem Subtracting.kept {next : Machine}
    (subtracting : Subtracting first second machine)
    (stepped : machine.step = some (.done next)) :
    Subtracting first second next := by
  rcases subtracting.step with ends | ⟨after, stepsTo, subtractingAfter⟩
  · rw [stepped] at ends
    cases ends
  · rw [stepped] at stepsTo
    cases stepsTo
    exact subtractingAfter

def Positive (machine : Machine) : Prop :=
  ∃ x y : Word, 0 < x ∧ 0 < y ∧ machine.read? "ax" = some (.number x) ∧
    machine.read? "bx" = some (.number y)

/-- The instruction names two registers, and the difference of the numbers in
them does not wrap. -/
def Exact (instruction : Instruction) (machine : Machine) : Prop :=
  ∃ left right x y, instruction.arguments = [.register left, .register right] ∧
    machine.read? left = some (.number x) ∧
    machine.read? right = some (.number y) ∧
    (x - y).toInt = x.toInt - y.toInt

theorem Subtracting.positive (subtracting : Subtracting first second machine) :
    Positive machine := by
  cases subtracting with
  | finished left => exact ⟨_, _, left, left, rfl, rfl⟩
  | _ => exact ⟨_, _, ‹_›, ‹_›, rfl, rfl⟩

/-- No comparison and no subtraction wraps. -/
theorem Subtracting.exact {instruction : Instruction}
    (subtracting : Subtracting first second machine)
    (fetched : machine.fetch? = some instruction)
    (subtracts : instruction.operation ∈
      [.ofMnemonic .cmp, .ofMnemonic .dec]) : Exact instruction machine := by
  cases subtracting with
  | @compare x y flag left right =>
    obtain rfl := Option.some.inj fetched
    exact ⟨"ax", "bx", x, y, rfl, rfl, rfl, Word.toInt_sub_of_pos left right⟩
  | @greater x y flag left right order =>
    obtain rfl := Option.some.inj fetched
    exact ⟨"ax", "bx", x, y, rfl, rfl, rfl, Word.toInt_sub_of_pos left right⟩
  | @smaller x y flag left right order =>
    obtain rfl := Option.some.inj fetched
    exact ⟨"bx", "ax", y, x, rfl, rfl, rfl, Word.toInt_sub_of_pos right left⟩
  | compared left right =>
    obtain rfl : Instruction.mk (.ofMnemonic (.jump .zero)) [.label "finish"] =
      instruction := Option.some.inj fetched
    exact absurd subtracts (by decide)
  | different left right unequal =>
    obtain rfl : Instruction.mk (.ofMnemonic (.jump .negative))
      [.label "asmaller"] = instruction := Option.some.inj fetched
    exact absurd subtracts (by decide)
  | subtractedFirst flag left right =>
    obtain rfl : Instruction.mk (.ofMnemonic (.jump .always)) [.label "cycle"] =
      instruction := Option.some.inj fetched
    exact absurd subtracts (by decide)
  | subtractedSecond flag left right =>
    obtain rfl : Instruction.mk (.ofMnemonic (.jump .always)) [.label "cycle"] =
      instruction := Option.some.inj fetched
    exact absurd subtracts (by decide)
  | finished left => cases fetched

/-- The two moves come first. -/
theorem mem_attempts {budget : Nat} {attempt : Attempt}
    (isAttempt : attempt ∈ (state first second 0 0 0 0).attempts budget) :
    attempt.instruction.operation = .ofMnemonic .mov ∨
      ∃ rest, attempt ∈ (state first second 2 first second 0).attempts rest := by
  have firstMove : (state first second 0 0 0 0).attempt? =
      some ⟨_, .ofMnemonic .mov, [ax, .literal first]⟩ := rfl
  have firstDone : Attempt.outcome
      ⟨state first second 0 0 0 0, .ofMnemonic .mov, [ax, .literal first]⟩ =
        .done (state first second 1 first 0 0) := rfl
  have secondMove : (state first second 1 first 0 0).attempt? =
      some ⟨_, .ofMnemonic .mov, [bx, .literal second]⟩ := rfl
  have secondDone : Attempt.outcome
      ⟨state first second 1 first 0 0, .ofMnemonic .mov, [bx, .literal second]⟩ =
        .done (state first second 2 first second 0) := rfl
  match budget with
  | 0 => simp [Machine.attempts] at isAttempt
  | 1 =>
    rw [Machine.attempts_of_step 0 firstMove firstDone] at isAttempt
    obtain rfl := List.mem_singleton.1 isAttempt
    exact .inl rfl
  | rest + 2 =>
    rw [Machine.attempts_of_step (rest + 1) firstMove firstDone,
      Machine.attempts_of_step rest secondMove secondDone, List.mem_cons,
      List.mem_cons] at isAttempt
    rcases isAttempt with rfl | rfl | isLater
    · exact .inl rfl
    · exact .inl rfl
    · exact .inr ⟨rest, isLater⟩

theorem run_moves (budget : Nat) :
    (state first second 0 0 0 0).run (budget + 2) =
      (state first second 2 first second 0).run budget := by
  rw [Machine.run_of_step _ (step_mov_first first second),
    Machine.run_of_step _ (step_mov_second first second)]

/-- The number of steps that the program takes on two positive operands. -/
def steps (first second : Word) : Nat :=
  5 * subtractions first.toNatClampNeg second.toNatClampNeg + 4

/-- What the machine that holds the program makes of two positive operands: it
takes that number of steps, none of which wraps, and stops behind the program
with the greatest common divisor in both registers. -/
structure Computes (first second : Word) (machine final : Machine) : Prop where
  pauses : machine.run (steps first second) = .paused final
  halts : ∀ budget, steps first second < budget →
    machine.run budget = .halted final ∧
      (machine.attempts budget).length = steps first second
  results : ∃ common : Word, common.toInt = Int.gcd first.toInt second.toInt ∧
    Dialect.standard.results final =
      [.number common, .number common, .number 0, .number 0]
  flag : final.read? comparisonRegister = some (.number 0)
  counter : final.counter.address = 9
  exact : ∀ budget, ∀ attempt ∈ machine.attempts budget,
    attempt.instruction.operation ∈ [.ofMnemonic .cmp, .ofMnemonic .dec] →
      Exact attempt.instruction attempt.before
  positive : ∀ budget, 2 ≤ budget → Positive (machine.run budget).machine
  reached : CommandLine.finalMachine first second = .ok final
  reply : ∀ showState,
    (CommandLine.compute first second showState).errors = "" ∧
      (CommandLine.compute first second showState).exitCode = 0

theorem steps_lt_budget (firstPositive : 0 < first)
    (secondPositive : 0 < second) :
    steps first second < budget first second := by
  have fewer := subtractions_add_two_le
    ((Int64.toNatClampNeg_pos_iff first).2 firstPositive)
    ((Int64.toNatClampNeg_pos_iff second).2 secondPositive)
  rw [steps, budget]
  omega

theorem run_steps (firstPositive : 0 < first) (secondPositive : 0 < second) :
    ∃ common : Word, common.toInt = Int.gcd first.toInt second.toInt ∧
      (state first second 0 0 0 0).run (steps first second) =
        .paused (state first second 9 common common 0) := by
  have firstNatural := Int64.ofNat_toNatClampNeg first
    (Int64.le_of_lt firstPositive)
  have secondNatural := Int64.ofNat_toNatClampNeg second
    (Int64.le_of_lt secondPositive)
  have ends := run_of_positive first second 0
    ((Int64.toNatClampNeg_pos_iff first).2 firstPositive)
    ((Int64.toNatClampNeg_pos_iff second).2 secondPositive)
    (Int64.toNatClampNeg_lt first) (Int64.toNatClampNeg_lt second)
  rw [firstNatural, secondNatural] at ends
  refine ⟨_, ?_, (run_moves _).trans ends⟩
  have small : first.toNatClampNeg.gcd second.toNatClampNeg < 2 ^ 63 := by
    have divides := Nat.gcd_le_left second.toNatClampNeg
      ((Int64.toNatClampNeg_pos_iff first).2 firstPositive)
    have bound := Int64.toNatClampNeg_lt first
    omega
  have firstValue : first.toInt.natAbs = first.toNatClampNeg := by
    rw [Word.pos_iff] at firstPositive
    rw [← Int64.toNat_toInt]
    omega
  have secondValue : second.toInt.natAbs = second.toNatClampNeg := by
    rw [Word.pos_iff] at secondPositive
    rw [← Int64.toNat_toInt]
    omega
  rw [Int64.toInt_ofNat_of_lt small, Int.gcd, firstValue, secondValue]

theorem computes_of_positive (firstPositive : 0 < first)
    (secondPositive : 0 < second) :
    ∃ final, Computes first second (state first second 0 0 0 0) final := by
  obtain ⟨common, divisor, pauses⟩ := run_steps firstPositive secondPositive
  have ends : (state first second 9 common common 0).fetch? = none := rfl
  have start : Subtracting first second (state first second 2 first second 0) :=
    .compare 0 firstPositive secondPositive
  have reached : CommandLine.finalMachine first second =
      .ok (state first second 9 common common 0) := by
    have notRefused : (decide (first ≤ 0) || decide (second ≤ 0)) = false := by
      simpa using ⟨firstPositive, secondPositive⟩
    obtain ⟨halts, _⟩ := Machine.halts_after pauses ends
      (steps_lt_budget firstPositive secondPositive)
    rw [CommandLine.finalMachine, notRefused, assemble_program]
    simp only [halts, Bool.false_eq_true, if_false]
  refine ⟨_, pauses, fun budget enough => Machine.halts_after pauses ends enough,
    ⟨common, divisor, rfl⟩, rfl, rfl, ?_, ?_, reached, ?_⟩
  · intro budget attempt isAttempt subtracts
    rcases mem_attempts isAttempt with moves | ⟨rest, isLater⟩
    · rw [moves] at subtracts
      exact absurd subtracts (by decide)
    · obtain ⟨subtracting, fetched⟩ :=
        Machine.invariant_attempts (fun _ _ => Subtracting.kept) start isLater
      exact subtracting.exact fetched subtracts
  · intro budget moved
    obtain ⟨rest, rfl⟩ := Nat.exists_eq_add_of_le' moved
    rw [run_moves]
    exact (Machine.invariant_run (fun _ _ => Subtracting.kept) start rest).positive
  · intro showState
    rw [CommandLine.compute, reached]
    exact ⟨rfl, rfl⟩

/-- The program computes greatest common divisors.  It is always assembled.  On
two positive operands it ends after five steps for each subtraction of Euclid's
algorithm and four more, with the divisor in both registers, and on its way no
difference wraps.  When one operand is zero and the other one positive it runs
forever. -/
theorem program_computes_gcd (first second : Word) :
    ∃ machine, Dialect.standard.assemble (program first second) = .ok machine ∧
      (0 < first → 0 < second → ∃ final, Computes first second machine final) ∧
      (0 < first ∧ second = 0 ∨ first = 0 ∧ 0 < second →
        ∀ budget, ∃ later, machine.run budget = .paused later) := by
  refine ⟨_, assemble_program first second, computes_of_positive, ?_⟩
  rintro zeroOperand budget
  have forever : ∃ later,
      (state first second 2 first second 0).run budget = .paused later := by
    rcases zeroOperand with ⟨positive, rfl⟩ | ⟨rfl, positive⟩
    · exact paused_of_zero_second first 0 positive budget
    · exact paused_of_zero_first 0 second positive budget
  obtain ⟨later, pauses⟩ := forever
  rw [← run_moves] at pauses
  exact Machine.paused_of_le pauses (Nat.le_add_right budget 2)

theorem computes_gcd_of_defaults :
    (∃ machine final, Dialect.standard.assemble (program 40 32) = .ok machine ∧
        Computes 40 32 machine final ∧ machine.run 24 = .paused final) ∧
      ∃ machine, Dialect.standard.assemble (program 40 0) = .ok machine ∧
        ∀ budget, ∃ later, machine.run budget = .paused later := by
  obtain ⟨machine, assembles, computes, _⟩ := program_computes_gcd 40 32
  obtain ⟨final, computed⟩ := computes (by decide) (by decide)
  have count : steps 40 32 = 24 := by
    have first : Int64.toNatClampNeg 40 = 40 := by decide
    have second : Int64.toNatClampNeg 32 = 32 := by decide
    simp [steps, first, second, subtractions]
  obtain ⟨stuck, assemblesStuck, _, forever⟩ := program_computes_gcd 40 0
  exact ⟨⟨machine, final, assembles, computed, count ▸ computed.pauses⟩,
    stuck, assemblesStuck, forever (.inl ⟨by decide, rfl⟩)⟩

end Euclid

end RegisterMachine

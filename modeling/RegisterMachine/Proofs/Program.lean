import Mathlib.Algebra.Group.Int.Defs
import Mathlib.Algebra.Group.Nat.Defs
import Mathlib.Data.List.Induction
import RegisterMachine.Machine

/-!
# Programs as they are written

What the lines of a program stand for under the standard operations, read off
the text alone: a line that names a label definition or a register queues
nothing, and every other line queues one instruction.  Positions count lines and
addresses count queued instructions.  This file relates the two and determines
the address of a label from the position of its last definition.
-/

namespace RegisterMachine

namespace Word

theorem toInt_ofNat_sub_one {count : Nat} (small : count < 2 ^ 63) :
    (Int64.ofNat count - 1).toInt = (count : Int) - 1 := by
  have one : (1 : Int64).toInt = 1 := by decide
  rw [Int64.toInt_sub, Int64.toInt_ofNat_of_lt small, one]
  exact Int.bmod_eq_of_le (by omega) (by omega)

end Word

namespace Mnemonic

/-- The names under which a basic operation can be invoked. -/
def names (mnemonic : Mnemonic) : List Name :=
  mnemonic.text :: mnemonic.aliases

/-- The basic operation that `name` invokes, by its own name or by an alias. -/
def named? (name : Name) : Option Mnemonic :=
  all.find? fun mnemonic => mnemonic.names.contains name

theorem mem_names_of_named? {name : Name} {mnemonic : Mnemonic}
    (named : named? name = some mnemonic) : name ∈ mnemonic.names := by
  simpa using List.find?_some named

theorem named?_of_mem_names {name : Name} {mnemonic : Mnemonic}
    (isName : name ∈ mnemonic.names) : named? name = some mnemonic := by
  cases mnemonic with
  | jump condition =>
    obtain rfl : name = condition.jumpName := by
      simpa [names, text, aliases] using isName
    cases condition <;> decide
  | label =>
    obtain rfl : name = "label" := by simpa [names, text, aliases] using isName
    decide
  | _ =>
    simp only [names, text, aliases, List.mem_cons, List.not_mem_nil,
      or_false] at isName
    rcases isName with rfl | rfl <;> decide

/-- No name invokes two operations. -/
theorem named?_eq_some_iff {name : Name} {mnemonic : Mnemonic} :
    named? name = some mnemonic ↔ name ∈ mnemonic.names :=
  ⟨mem_names_of_named?, named?_of_mem_names⟩

end Mnemonic

namespace Invocation

/-- The basic operation that a line names, unless it names a register. -/
def mnemonic? (line : Invocation) : Option Mnemonic :=
  Mnemonic.named? line.name

def instruction? (line : Invocation) : Option Instruction :=
  match line.mnemonic? with
  | none | some .label => none
  | some mnemonic => some ⟨.ofMnemonic mnemonic, line.arguments⟩

def definedLabel? (line : Invocation) : Option Name :=
  match line.mnemonic?, line.arguments with
  | some .label, [.label name] => some name
  | _, _ => none

theorem instruction?_eq_some_iff {line : Invocation}
    {instruction : Instruction} :
    line.instruction? = some instruction ↔
      ∃ mnemonic, line.mnemonic? = some mnemonic ∧ mnemonic ≠ .label ∧
        instruction = ⟨.ofMnemonic mnemonic, line.arguments⟩ := by
  unfold instruction?
  split
  next unnamed => simp [unnamed]
  next named => simp [named]
  next mnemonic notLabel named =>
    have distinct : mnemonic ≠ .label := notLabel
    simp [named, distinct, eq_comm]

theorem instruction?_eq_none_of_definedLabel? {line : Invocation} {label : Name}
    (defines : line.definedLabel? = some label) : line.instruction? = none := by
  unfold definedLabel? at defines
  split at defines
  next named _ => simp [instruction?, named]
  next => simp at defines

/-- A definition has one form only, as the operation has no alias. -/
theorem definedLabel?_eq_some_iff {line : Invocation} {label : Name} :
    line.definedLabel? = some label ↔ line = ⟨"label", [.label label]⟩ := by
  constructor
  · intro defines
    obtain ⟨name, arguments⟩ := line
    unfold definedLabel? at defines
    split at defines
    next named single =>
      have isName : name ∈ Mnemonic.label.names :=
        Mnemonic.mem_names_of_named? named
      obtain rfl : name = "label" := by
        simpa [Mnemonic.names, Mnemonic.text, Mnemonic.aliases] using isName
      obtain rfl := Option.some.inj defines
      exact congrArg _ single
    next => simp at defines
  · rintro rfl
    rfl

end Invocation

abbrev Program :=
  List Invocation

namespace Program

open Invocation

/-- The instructions that the lines of a program queue, in order. -/
def instructions (program : Program) : List Instruction :=
  program.filterMap Invocation.instruction?

/-- The number of instructions in front of a position. -/
def addressAt (program : Program) (position : Nat) : Nat :=
  (instructions (program.take position)).length

/-- The position just after the last definition of `label`. -/
def labelPosition? (label : Name) : Program → Option Nat
  | [] => none
  | line :: rest =>
    match labelPosition? label rest with
    | some position => some (position + 1)
    | none => if line.definedLabel? = some label then some 1 else none

/-- The labels that lines define, each with the address of the instruction in
front of it, when `queued` instructions stand before the lines. -/
def labelEntries (queued : Nat) : Program → List (Name × Word)
  | [] => []
  | line :: rest =>
    match line.definedLabel? with
    | some label =>
      (label, Int64.ofNat queued - 1) :: labelEntries queued rest
    | none =>
      labelEntries (queued + line.instruction?.toList.length) rest

def labelTable (program : Program) : LabelTable :=
  .ofEntries (labelEntries 0 program)

variable {program : Program} {line : Invocation} {position : Nat}

@[simp]
theorem instructions_append (first second : Program) :
    instructions (first ++ second) = instructions first ++ instructions second :=
  List.filterMap_append

@[simp]
theorem instructions_singleton (line : Invocation) :
    instructions [line] = line.instruction?.toList := by
  cases queued : line.instruction? <;> simp [instructions, queued]

theorem length_instructions_le (program : Program) :
    (instructions program).length ≤ program.length :=
  List.length_filterMap_le _ _

@[simp]
theorem addressAt_zero (program : Program) : addressAt program 0 = 0 :=
  rfl

theorem addressAt_of_length_le (program : Program)
    (outside : program.length ≤ position) :
    addressAt program position = (instructions program).length := by
  rw [addressAt, List.take_of_length_le outside]

theorem instructions_split (atPosition : program[position]? = some line) :
    instructions program =
      instructions (program.take position) ++
        (line.instruction?.toList ++
          instructions (program.drop (position + 1))) := by
  obtain ⟨inside, rfl⟩ := List.getElem?_eq_some_iff.1 atPosition
  calc
    instructions program =
        instructions (program.take position ++ program.drop position) := by
      rw [List.take_append_drop]
    _ = instructions (program.take position ++
          ([program[position]] ++ program.drop (position + 1))) := by
      rw [List.drop_eq_getElem_cons inside, List.singleton_append]
    _ = _ := by
      rw [instructions_append, instructions_append, instructions_singleton]

theorem addressAt_le (program : Program) (position : Nat) :
    addressAt program position ≤ (instructions program).length := by
  have split := congrArg (fun lines => (instructions lines).length)
    (List.take_append_drop position program)
  simp only [instructions_append, List.length_append] at split
  unfold addressAt
  omega

theorem addressAt_succ (atPosition : program[position]? = some line) :
    addressAt program (position + 1) =
      addressAt program position + line.instruction?.toList.length := by
  rw [addressAt, addressAt, List.take_add_one, atPosition, Option.toList_some,
    instructions_append, instructions_singleton, List.length_append]

theorem addressAt_succ_of_silent (atPosition : program[position]? = some line)
    (silent : line.instruction? = none) :
    addressAt program (position + 1) = addressAt program position := by
  simp [addressAt_succ atPosition, silent]

theorem addressAt_succ_of_queued (atPosition : program[position]? = some line)
    {instruction : Instruction} (queued : line.instruction? = some instruction) :
    addressAt program (position + 1) = addressAt program position + 1 := by
  simp [addressAt_succ atPosition, queued]

/-- The instruction of a line stands at the address of its position. -/
theorem instructions_addressAt (atPosition : program[position]? = some line)
    {instruction : Instruction} (queued : line.instruction? = some instruction) :
    (instructions program)[addressAt program position]? = some instruction := by
  rw [instructions_split atPosition, addressAt]
  simp [queued]

theorem labelPosition?_le {label : Name}
    (defined : labelPosition? label program = some position) :
    position ≤ program.length := by
  induction program generalizing position with
  | nil => simp [labelPosition?] at defined
  | cons line rest induction =>
    unfold labelPosition? at defined
    split at defined
    next later found =>
      have inRest := induction found
      obtain rfl := Option.some.inj defined
      simpa using inRest
    next =>
      split at defined
      · obtain rfl := Option.some.inj defined
        simp
      · simp at defined

theorem labelPosition?_concat (label : Name) (program : Program)
    (line : Invocation) :
    labelPosition? label (program ++ [line]) =
      if line.definedLabel? = some label then some (program.length + 1)
      else labelPosition? label program := by
  induction program with
  | nil => simp [labelPosition?]
  | cons first rest induction =>
    rw [List.cons_append, labelPosition?, induction]
    by_cases defines : line.definedLabel? = some label
    · simp [defines]
    · simp [defines, labelPosition?]

theorem labelPosition?_eq_none_iff {label : Name} :
    labelPosition? label program = none ↔
      ∀ line ∈ program, line.definedLabel? ≠ some label := by
  induction program with
  | nil => simp [labelPosition?]
  | cons line rest induction =>
    cases later : labelPosition? label rest with
    | some position =>
      have notAbsent := induction.not.1 (by simp [later])
      simp only [labelPosition?, later, reduceCtorEq, List.mem_cons,
        forall_eq_or_imp, false_iff, not_and]
      exact fun _ => notAbsent
    | none =>
      have absent := induction.1 later
      by_cases defines : line.definedLabel? = some label
      · simp [labelPosition?, later, defines]
      · simpa [labelPosition?, later, defines] using absent

theorem labelPosition?_isSome_iff {label : Name} :
    (labelPosition? label program).isSome ↔
      ⟨"label", [.label label]⟩ ∈ program := by
  rw [Option.isSome_iff_ne_none, ne_eq, labelPosition?_eq_none_iff]
  simp only [Invocation.definedLabel?_eq_some_iff, ne_eq, not_forall,
    not_not, exists_prop, exists_eq_right]

theorem labelPosition?_eq_none_of_not_mem {label : Name}
    (undefined : ⟨"label", [.label label]⟩ ∉ program) :
    labelPosition? label program = none := by
  rw [← labelPosition?_isSome_iff, Option.not_isSome_iff_eq_none] at undefined
  exact undefined

/-- The position of a label is determined by its last definition. -/
theorem labelPosition?_eq_some_iff {label : Name} :
    labelPosition? label program = some position ↔
      ∃ before line after, program = before ++ line :: after ∧
        line.definedLabel? = some label ∧
        (∀ later ∈ after, later.definedLabel? ≠ some label) ∧
        position = before.length + 1 := by
  constructor
  · intro defined
    induction program generalizing position with
    | nil => simp [labelPosition?] at defined
    | cons first rest induction =>
      unfold labelPosition? at defined
      split at defined
      next inRest found =>
        obtain ⟨before, line, after, rfl, defines, last, rfl⟩ := induction found
        refine ⟨first :: before, line, after, rfl, defines, last, ?_⟩
        simpa using (Option.some.inj defined).symm
      next absent =>
        split at defined
        next defines =>
          refine ⟨[], first, rest, rfl, defines,
            labelPosition?_eq_none_iff.1 absent, ?_⟩
          exact (Option.some.inj defined).symm
        next => simp at defined
  · rintro ⟨before, line, after, rfl, defines, last, rfl⟩
    have absent := labelPosition?_eq_none_iff.2 last
    induction before with
    | nil => simp [labelPosition?, absent, defines]
    | cons first before induction =>
      rw [List.cons_append, labelPosition?, induction, List.length_cons]

theorem labelEntries_append (queued : Nat) (first second : Program) :
    labelEntries queued (first ++ second) =
      labelEntries queued first ++
        labelEntries (queued + (instructions first).length) second := by
  induction first generalizing queued with
  | nil => rfl
  | cons line rest induction =>
    have split : (instructions (line :: rest)).length =
        line.instruction?.toList.length + (instructions rest).length := by
      rw [← List.singleton_append, instructions_append, instructions_singleton,
        List.length_append]
    rw [List.cons_append, labelEntries, labelEntries, split]
    cases defines : line.definedLabel? with
    | some label =>
      simp [induction, Invocation.instruction?_eq_none_of_definedLabel? defines]
    | none => simp [induction, Nat.add_assoc]

theorem labelTable_concat (program : Program) (line : Invocation) :
    labelTable (program ++ [line]) =
      match line.definedLabel? with
      | some label =>
        (labelTable program).insert label
          (Int64.ofNat (instructions program).length - 1)
      | none => labelTable program := by
  rw [labelTable, labelEntries_append, LabelTable.ofEntries, List.foldl_append]
  cases defines : line.definedLabel? with
  | some label => simp [labelEntries, defines, labelTable, LabelTable.ofEntries]
  | none => simp [labelEntries, defines, labelTable, LabelTable.ofEntries]

theorem addressAt_append (first second : Program)
    (inside : position ≤ first.length) :
    addressAt (first ++ second) position = addressAt first position := by
  rw [addressAt, List.take_append_of_le_length inside, addressAt]

/-- The table records for each label the address of the last instruction in
front of its last definition. -/
theorem get?_labelTable (program : Program) (label : Name) :
    (labelTable program).get? label =
      (labelPosition? label program).map fun position =>
        Int64.ofNat (addressAt program position) - 1 := by
  induction program using List.reverseRecOn with
  | nil => rfl
  | append_singleton program line induction =>
    have earlier : (labelPosition? label program).map (fun position =>
          Int64.ofNat (addressAt program position) - 1) =
        (labelPosition? label program).map fun position =>
          Int64.ofNat (addressAt (program ++ [line]) position) - 1 := by
      refine Option.map_congr fun position defined => ?_
      rw [addressAt_append program [line] (labelPosition?_le defined)]
    rw [labelTable_concat, labelPosition?_concat]
    cases defines : line.definedLabel? with
    | none => simpa [earlier] using induction
    | some defined =>
      by_cases same : defined = label
      · have silent :=
          Invocation.instruction?_eq_none_of_definedLabel? defines
        subst same
        simp [addressAt_of_length_le, silent]
      · simpa [same, Ne.symm same, earlier] using induction

theorem get?_labelTable_of_position {label : Name} (position address : Nat)
    (defined : labelPosition? label program = some position)
    (place : addressAt program position = address) :
    (labelTable program).get? label = some (Int64.ofNat address - 1) := by
  rw [get?_labelTable, defined, Option.map_some, place]

/-- The table records exactly the labels that are defined, each at the address
of the instruction in front of its last definition. -/
theorem get?_labelTable_eq_some_iff_last {label : Name} {address : Word} :
    (labelTable program).get? label = some address ↔
      ∃ before after, program = before ++ ⟨"label", [.label label]⟩ :: after ∧
        ⟨"label", [.label label]⟩ ∉ after ∧
        address = Int64.ofNat (instructions before).length - 1 := by
  have front (before after : Program) :
      addressAt (before ++ ⟨"label", [.label label]⟩ :: after)
        (before.length + 1) = (instructions before).length := by
    have silent : instruction? ⟨"label", [.label label]⟩ = none := rfl
    have whole : before.take (before.length + 1) = before :=
      List.take_of_length_le (by omega)
    simp [addressAt, List.take_append, silent, whole]
  rw [get?_labelTable, Option.map_eq_some_iff]
  simp only [labelPosition?_eq_some_iff, definedLabel?_eq_some_iff, ne_eq]
  constructor
  · rintro ⟨position, ⟨before, line, after, split, rfl, last, rfl⟩, rfl⟩
    refine ⟨before, after, split, fun again => last _ again rfl, ?_⟩
    rw [split, front]
  · rintro ⟨before, after, split, last, rfl⟩
    refine ⟨before.length + 1, ⟨before, _, after, split, rfl, ?_, rfl⟩, ?_⟩
    · rintro later isLater rfl
      exact last isLater
    · rw [split, front]

/-- The addresses of labels do not wrap in a program of less than `2 ^ 63`
lines. -/
theorem get?_labelTable_eq_some_iff (short : program.length < 2 ^ 63)
    {label : Name} {address : Word} :
    (labelTable program).get? label = some address ↔
      ∃ before after, program = before ++ ⟨"label", [.label label]⟩ :: after ∧
        ⟨"label", [.label label]⟩ ∉ after ∧
        address.toInt = ((instructions before).length : Int) - 1 := by
  rw [get?_labelTable_eq_some_iff_last]
  refine exists_congr fun before => exists_congr fun after =>
    and_congr_right fun split => and_congr_right fun _ => ?_
  have small : (instructions before).length < 2 ^ 63 := by
    have queued := length_instructions_le before
    have inside := congrArg List.length split
    rw [List.length_append] at inside
    omega
  rw [← Word.toInt_ofNat_sub_one small, Int64.toInt_inj]

end Program

end RegisterMachine

import Mathlib.Logic.Relation
import RegisterMachine.Proofs.ReferenceAssembly
import RegisterMachine.Proofs.Relabelling

/-!
# Spelling without a meaning

Some edits change the text of a program and not what it means: an operation can
go by another of its names, a register by itself asks for nothing, and of the
definitions of labels between two instructions only the last one of each label
counts.  A piece of a program means the same as another one if both are accepted
in the same cases, queue the same instructions, and define the same labels last
at the same addresses.  Such pieces can replace each other in any program, and
the programs become the same machine.
-/

namespace RegisterMachine

namespace Program

open Invocation

/-- Two pieces of a program that differ in their spelling alone. -/
inductive Respelling (registers : List Name) : Program → Program → Prop
  | rename {mnemonic : Mnemonic} {name other : Name}
      (isName : name ∈ mnemonic.names) (isOther : other ∈ mnemonic.names)
      (arguments : List Argument) :
      Respelling registers [⟨name, arguments⟩] [⟨other, arguments⟩]
  | register {name : Name} (isRegister : name ∈ registers) :
      Respelling registers [⟨name, []⟩] []
  | exchange (first second : List Argument) :
      Respelling registers [⟨"label", first⟩, ⟨"label", second⟩]
        [⟨"label", second⟩, ⟨"label", first⟩]
  | duplicate (arguments : List Argument) :
      Respelling registers [⟨"label", arguments⟩]
        [⟨"label", arguments⟩, ⟨"label", arguments⟩]
  | redefined {label : Name} {after : Program}
      (again : ⟨"label", [.label label]⟩ ∈ after) :
      Respelling registers (⟨"label", [.label label]⟩ :: after) after

/-- One piece of a program is respelled. -/
inductive Edit (registers : List Name) : Program → Program → Prop
  | within (before after : Program) {piece other : Program}
      (respelling : Respelling registers piece other) :
      Edit registers (before ++ piece ++ after) (before ++ other ++ after)

/-- Any number of pieces are respelled, each in one direction or the other. -/
def Respelled (registers : List Name) : Program → Program → Prop :=
  Relation.EqvGen (Edit registers)

/-- The address that a piece of a program leaves to a label, when `queued`
instructions stand before it. -/
def lastAddress? (label : Name) (queued : Nat) (piece : Program) :
    Option Word :=
  (labelEntries queued piece).reverse.lookup label

variable {registers : List Name} {line : Invocation} {label : Name}

theorem get?_labelTable_eq_lastAddress? (program : Program) (label : Name) :
    (labelTable program).get? label = lastAddress? label 0 program :=
  LabelTable.get?_ofEntries _ _

theorem lastAddress?_append (label : Name) (queued : Nat)
    (first second : Program) :
    lastAddress? label queued (first ++ second) =
      (lastAddress? label (queued + (instructions first).length) second).or
        (lastAddress? label queued first) := by
  rw [lastAddress?, labelEntries_append, List.reverse_append,
    List.lookup_append, lastAddress?, lastAddress?]

theorem lastAddress?_singleton (label : Name) (queued : Nat)
    (line : Invocation) :
    lastAddress? label queued [line] =
      if line.definedLabel? = some label then some (Int64.ofNat queued - 1)
      else none := by
  cases defines : line.definedLabel? with
  | none => simp [lastAddress?, labelEntries, defines]
  | some defined =>
    simp [lastAddress?, labelEntries, defines, LabelTable.lookup_cons_eq,
      eq_comm]

theorem lastAddress?_cons (label : Name) (queued : Nat) (line : Invocation)
    (rest : Program) :
    lastAddress? label queued (line :: rest) =
      (lastAddress? label (queued + line.instruction?.toList.length) rest).or
        (if line.definedLabel? = some label then some (Int64.ofNat queued - 1)
        else none) := by
  rw [← List.singleton_append, lastAddress?_append, lastAddress?_singleton,
    instructions_singleton]

/-- A line that defines a label queues nothing. -/
theorem lastAddress?_definition (label : Name) (queued : Nat)
    (arguments : List Argument) (rest : Program) :
    lastAddress? label queued (⟨"label", arguments⟩ :: rest) =
      (lastAddress? label queued rest).or
        (if definedLabel? ⟨"label", arguments⟩ = some label then
          some (Int64.ofNat queued - 1)
        else none) :=
  lastAddress?_cons label queued ⟨"label", arguments⟩ rest

/-- A label that a piece defines has an address behind it. -/
theorem lastAddress?_ne_none {piece : Program}
    (isDefined : ⟨"label", [.label label]⟩ ∈ piece) (queued : Nat) :
    lastAddress? label queued piece ≠ none := by
  induction piece generalizing queued with
  | nil => cases isDefined
  | cons line rest induction =>
    rw [lastAddress?_cons, ne_eq, Option.or_eq_none_iff, not_and_or]
    rcases List.mem_cons.1 isDefined with rfl | inRest
    · right
      rw [if_pos (definedLabel?_eq_some_iff.2 rfl)]
      exact Option.some_ne_none _
    · exact .inl (induction inRest _)

/-- The pieces mean the same, whatever stands around them. -/
structure Interchangeable (registers : List Name) (piece other : Program) :
    Prop where
  accepted : (∀ line ∈ piece, line.Acceptable registers) ↔
    ∀ line ∈ other, line.Acceptable registers
  instructions : instructions piece = instructions other
  lastAddress? : ∀ label queued,
    lastAddress? label queued piece = lastAddress? label queued other

namespace Interchangeable

variable {first second third piece other : Program}

theorem refl (piece : Program) : Interchangeable registers piece piece :=
  ⟨.rfl, rfl, fun _ _ => rfl⟩

theorem symm (same : Interchangeable registers first second) :
    Interchangeable registers second first :=
  ⟨same.accepted.symm, same.instructions.symm,
    fun label queued => (same.lastAddress? label queued).symm⟩

theorem trans (same : Interchangeable registers first second)
    (sameAgain : Interchangeable registers second third) :
    Interchangeable registers first third :=
  ⟨same.accepted.trans sameAgain.accepted,
    same.instructions.trans sameAgain.instructions, fun label queued =>
      (same.lastAddress? label queued).trans
        (sameAgain.lastAddress? label queued)⟩

theorem append (same : Interchangeable registers first second)
    (sameBehind : Interchangeable registers piece other) :
    Interchangeable registers (first ++ piece) (second ++ other) where
  accepted := by
    rw [List.forall_mem_append, List.forall_mem_append, same.accepted,
      sameBehind.accepted]
  instructions := by
    rw [instructions_append, instructions_append, same.instructions,
      sameBehind.instructions]
  lastAddress? label queued := by
    rw [lastAddress?_append, lastAddress?_append, same.instructions,
      same.lastAddress?, sameBehind.lastAddress?]

theorem labelTable (same : Interchangeable registers first second) :
    labelTable first = labelTable second := by
  refine LabelTable.ext_get? fun label => ?_
  rw [get?_labelTable_eq_lastAddress?, same.lastAddress?,
    ← get?_labelTable_eq_lastAddress?]

theorem assembled (same : Interchangeable registers first second) :
    assembled registers first = assembled registers second := by
  rw [Program.assembled, same.instructions, same.labelTable, Program.assembled]

/-- An operation goes by another of its names. -/
theorem rename {mnemonic : Mnemonic} {name newName : Name}
    (apart : ∀ name ∈ registers, Mnemonic.named? name = none)
    (isName : name ∈ mnemonic.names) (isNew : newName ∈ mnemonic.names)
    (arguments : List Argument) :
    Interchangeable registers [⟨name, arguments⟩] [⟨newName, arguments⟩] := by
  have named := Mnemonic.named?_of_mem_names isName
  have namedNew := Mnemonic.named?_of_mem_names isNew
  have sameOperation : mnemonic? ⟨name, arguments⟩ =
      mnemonic? ⟨newName, arguments⟩ := named.trans namedNew.symm
  refine ⟨?_, ?_, fun label queued => ?_⟩
  · rw [List.forall_mem_singleton, List.forall_mem_singleton]
    constructor
    · intro acceptable
      exact .inr ⟨mnemonic, isNew, acceptable.operation (apart name) named⟩
    · intro acceptable
      exact .inr
        ⟨mnemonic, isName, acceptable.operation (apart newName) namedNew⟩
  · rw [instructions_singleton, instructions_singleton, instruction?,
      sameOperation, instruction?]
  · rw [lastAddress?_singleton, lastAddress?_singleton, definedLabel?,
      sameOperation, definedLabel?]

/-- A register by itself asks for nothing. -/
theorem register {name : Name} (isRegister : name ∈ registers)
    (noOperation : Mnemonic.named? name = none) :
    Interchangeable registers [⟨name, []⟩] [] := by
  refine ⟨?_, ?_, fun label queued => ?_⟩
  · simp [Acceptable, isRegister]
  · simp [Program.instructions, instruction?, mnemonic?, noOperation]
  · rw [lastAddress?_singleton, definedLabel?, mnemonic?, noOperation]
    rfl

/-- Between the same instructions all labels get the same address. -/
theorem exchange (first second : List Argument) :
    Interchangeable registers [⟨"label", first⟩, ⟨"label", second⟩]
      [⟨"label", second⟩, ⟨"label", first⟩] := by
  refine ⟨?_, rfl, fun label queued => ?_⟩
  · simp only [List.forall_mem_cons, and_left_comm]
  · simp only [lastAddress?_definition]
    split <;> split <;> rfl

theorem duplicate (arguments : List Argument) :
    Interchangeable registers [⟨"label", arguments⟩]
      [⟨"label", arguments⟩, ⟨"label", arguments⟩] := by
  refine ⟨by simp, rfl, fun label queued => ?_⟩
  simp only [lastAddress?_definition]
  split <;> rfl

/-- The later definition of a label hides the earlier one. -/
theorem redefined {defined : Name} {after : Program}
    (again : ⟨"label", [.label defined]⟩ ∈ after) :
    Interchangeable registers (⟨"label", [.label defined]⟩ :: after) after := by
  refine ⟨?_, rfl, fun label queued => ?_⟩
  · rw [List.forall_mem_cons, and_iff_right_of_imp fun accepted =>
      accepted _ again]
  · rw [lastAddress?_definition]
    split
    next isDefined =>
      obtain rfl : defined = label := Option.some.inj isDefined
      obtain ⟨address, found⟩ :=
        Option.ne_none_iff_exists'.1 (lastAddress?_ne_none again queued)
      rw [found, Option.some_or]
    next => rw [Option.or_none]

end Interchangeable

theorem Respelling.interchangeable {piece other : Program}
    (apart : ∀ name ∈ registers, Mnemonic.named? name = none)
    (respelling : Respelling registers piece other) :
    Interchangeable registers piece other := by
  cases respelling with
  | rename isName isOther arguments => exact .rename apart isName isOther _
  | register isRegister => exact .register isRegister (apart _ isRegister)
  | exchange first second => exact .exchange first second
  | duplicate arguments => exact .duplicate arguments
  | redefined again => exact .redefined again

theorem Edit.interchangeable {program other : Program}
    (apart : ∀ name ∈ registers, Mnemonic.named? name = none)
    (edited : Edit registers program other) :
    Interchangeable registers program other := by
  obtain ⟨before, after, respelling⟩ := edited
  exact ((Interchangeable.refl before).append
    (respelling.interchangeable apart)).append (.refl after)

/-- Edits add up to programs with the same meaning. -/
theorem Respelled.interchangeable {program other : Program}
    (apart : ∀ name ∈ registers, Mnemonic.named? name = none)
    (respelled : Respelled registers program other) :
    Interchangeable registers program other := by
  induction respelled with
  | rel _ _ edited => exact edited.interchangeable apart
  | refl program => exact .refl program
  | symm _ _ _ same => exact same.symm
  | trans _ _ _ _ _ same sameAgain => exact same.trans sameAgain

end Program

namespace Dialect

open Program

variable {dialect : Dialect} {registers : List Name} {program other : Program}

/-- Programs that differ in their spelling alone are assembled in the same
cases, to the same machine, and so they have the same runs. -/
theorem spelling_has_no_meaning
    (declared : declare registers Operation.standard = .ok dialect)
    (respelled : Respelled registers program other) (submission : Submission) :
    (∀ machine, dialect.assembleBy submission program = .ok machine ↔
        dialect.assembleBy submission other = .ok machine) ∧
      ((∃ machine, dialect.assembleBy submission program = .ok machine) →
        ∀ budget, dialect.run submission budget program =
          dialect.run submission budget other) := by
  have isStandard := isStandard_of_declare declared
  obtain rfl := registers_of_declare declared
  have same := respelled.interchangeable fun _ =>
    named?_eq_none_of_register isStandard
  have assembles (machine : Machine) :
      dialect.assembleBy submission program = .ok machine ↔
        dialect.assembleBy submission other = .ok machine := by
    rw [assembleBy_eq_ok_iff_acceptable isStandard,
      assembleBy_eq_ok_iff_acceptable isStandard, same.accepted,
      same.assembled]
  refine ⟨assembles, ?_⟩
  rintro ⟨machine, assembled⟩ budget
  rw [run, assembled, run, (assembles machine).1 assembled]

def countdown : Program :=
  [⟨"mov", [.register "ax", .literal 3]⟩, ⟨"label", [.label "again"]⟩,
    ⟨"label", [.label "top"]⟩, ⟨"dec", [.register "ax"]⟩,
    ⟨"cmp", [.register "ax", .literal 0]⟩, ⟨"jg", [.label "again"]⟩]

/-- The same loop after an edit of each kind.  Its first line defines a label
that is defined again: if it counted, the loop would never end. -/
def countdownRespelled : Program :=
  [⟨"label", [.label "again"]⟩, ⟨"move", [.register "ax", .literal 3]⟩,
    ⟨"bx", []⟩, ⟨"label", [.label "top"]⟩, ⟨"label", [.label "top"]⟩,
    ⟨"label", [.label "again"]⟩, ⟨"dec", [.register "ax"]⟩,
    ⟨"cmp", [.register "ax", .literal 0]⟩, ⟨"jg", [.label "again"]⟩]

theorem countdownRespelled_same :
    declare standardRegisters Operation.standard = .ok standard ∧
      Respelled standardRegisters countdown countdownRespelled ∧
      (∃ machine, standard.assembleBy .byReference countdown = .ok machine) ∧
      standard.run .byReference 20 countdownRespelled =
        .results [.number 0, .number 0, .number 0, .number 0] := by
  have declared : declare standardRegisters Operation.standard = .ok standard :=
    declare_eq_ok_iff.2 ⟨rfl, rfl⟩
  have edit {before after piece other : Program}
      (respelling : Respelling standardRegisters piece other) :
      Respelled standardRegisters (before ++ piece ++ after)
        (before ++ other ++ after) :=
    .rel _ _ (.within before after respelling)
  have move := @edit [] (countdown.drop 1) _ _
    (.rename (by decide : "mov" ∈ Mnemonic.mov.names)
      (by decide : "move" ∈ Mnemonic.mov.names)
      [.register "ax", .literal 3])
  have exchange := @edit [⟨"move", [.register "ax", .literal 3]⟩]
    (countdown.drop 3) _ _ (.exchange [.label "again"] [.label "top"])
  have duplicate := @edit [⟨"move", [.register "ax", .literal 3]⟩]
    (⟨"label", [.label "again"]⟩ :: countdown.drop 3) _ _
    (.duplicate [.label "top"])
  have register := @edit [⟨"move", [.register "ax", .literal 3]⟩]
    (countdownRespelled.drop 3) _ _
    (.register (by decide : "bx" ∈ standardRegisters))
  have redefined := @edit [] [] _ _ (.redefined
    (by decide : ⟨"label", [.label "again"]⟩ ∈ countdownRespelled.drop 1))
  have respelled : Respelled standardRegisters countdown countdownRespelled :=
    .trans _ _ _ move <| .trans _ _ _ exchange <| .trans _ _ _ duplicate <|
      .trans _ _ _ (.symm _ _ register) (.symm _ _ redefined)
  have same := (spelling_has_no_meaning declared respelled .byReference).2
    ⟨_, rfl⟩ 20
  exact ⟨declared, respelled, ⟨_, rfl⟩, same.symm.trans rfl⟩

end Dialect

end RegisterMachine

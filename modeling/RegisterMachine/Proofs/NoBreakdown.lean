import RegisterMachine.Proofs.ExactChanges

/-!
# No statement breaks down

The check that keeps a statement within its domain often stands elsewhere: the
number of arguments is checked before they are taken, the table of slots leads
into the array of registers because both grow together, and the sign of the
counter is looked at before it is used as a position.  In a coherent storage of
fewer than `2 ^ 63` instructions these checks are enough.  So whatever is done to
a machine, no command breaks down on the way, and none would break down
afterwards, wherever the counter stands and whatever the label register holds.
-/

namespace RegisterMachine

namespace Storage

variable {table : Type} [SlotTable table] {storage : Storage table}

/-- Commands take no instructions away. -/
theorem Coherent.assembled_le_performAll [LawfulSlotTable table]
    (coherent : storage.Coherent) (commands : List Command) :
    storage.assembled ≤ (storage.performAll commands).assembled := by
  have grows := Machine.growsTo_performAll storage.machine commands
  rw [← machine_performAll coherent] at grows
  rw [coherent.counted, (coherent.performAll commands).counted]
  exact grows.instructions.length_le

/-- The slot that is told holds the register of this name, with its old contents
if it has any. -/
theorem registers_provision [LawfulSlotTable table]
    (coherent : storage.Coherent) (register : Register) :
    (storage.provision register).1.registers[
      (storage.provision register).2]? =
        some ⟨register.name,
          (storage.machine.read? register.name).getD register.cell⟩ := by
  rw [snd_provision, (setsOnly_provision coherent register).registers,
    if_pos rfl]

end Storage

namespace Procedure

open Storage

variable {table : Type} {α : Type} {storage : Storage table}

/-- Some statement of a procedure breaks down. -/
def BreaksDown (procedure : Procedure table α) (storage : Storage table) :
    Prop :=
  ∃ after, procedure.run storage = .error .breakdown after

theorem not_breaksDown_of_settled {procedure : Procedure table Unit}
    {result : Except Fault (Storage table)}
    (run : procedure.run storage = settled storage result) :
    ¬ BreaksDown procedure storage := by
  rintro ⟨after, breaks⟩
  rw [run] at breaks
  cases result <;> cases breaks

/-- An attempt keeps what has been done before a refusal. -/
theorem run_attempt (procedure : Procedure table Unit)
    (storage : Storage table) :
    (attempt procedure).run storage =
      match procedure.run storage with
      | .ok _ changed => .ok () changed
      | .error (.refused _) after => .ok () after
      | .error .breakdown after => .error .breakdown after := by
  change EStateM.tryCatch procedure _ storage = _
  rw [EStateM.tryCatch, EStateM.run]
  cases procedure storage with
  | ok _ changed => rfl
  | error stop after => cases stop <;> rfl

theorem run_attempt_of_settled {procedure : Procedure table Unit}
    {result : Except Fault (Storage table)}
    (run : procedure.run storage = settled storage result) :
    (attempt procedure).run storage = .ok () (storage.settle result) := by
  rw [run_attempt, run]
  cases result <;> rfl

theorem run_asCount {value : Int} {count : Nat} (isCount : value = count)
    (bounded : count < UInt64.size) (storage : Storage table) :
    (asCount value).run storage = .ok count storage := by
  have inside : 0 ≤ value ∧ value < UInt64.size := by omega
  rw [asCount, if_pos inside, isCount]
  rfl

/-- Fewer than `2 ^ 63` instructions are counted by a word, and the address of
the last one is a word. -/
theorem run_asWord_of_count {count : Nat} (few : count < 2 ^ 63)
    (storage : Storage table) :
    (asWord ((Int64.ofNat count).toInt - 1)).run storage =
      .ok (Int64.ofNat count - 1) storage := by
  have counted : (Int64.ofNat count).toInt = count :=
    Int64.toInt_ofNat_of_lt few
  have isWord : Int64.minValue.toInt ≤ (count : Int) - 1 ∧
      (count : Int) - 1 ≤ Int64.maxValue.toInt := by
    rw [Int64.toInt_minValue, Int64.toInt_maxValue]
    omega
  have last : Int64.ofInt ((count : Int) - 1) = Int64.ofNat count - 1 := by
    rw [Int64.ofInt_sub]
    rfl
  rw [asWord, counted, Word.ofInt?, if_pos isWord, last]
  rfl

/-- Wherever the counter stands, its address is used as a position only if it is
one. -/
theorem run_position? (storage : Storage table) (size : Nat) :
    (position? size).run storage =
      .ok (storage.counter.index? size) storage := by
  have signed : storage.counter.address < 0 ↔
      storage.counter.address.toInt < 0 := Int64.lt_iff_toInt_lt
  have bounded := storage.counter.address.toInt_lt
  rw [position?, run_bind_of_ok (EStateM.run_get storage)]
  by_cases negative : storage.counter.address < 0
  · rw [if_pos negative,
      Counter.index?_eq_none_iff.2 (.inl (signed.1 negative))]
    rfl
  · obtain ⟨count, counts⟩ := Int.eq_ofNat_of_zero_le
      (Int.not_lt.1 (negative ∘ signed.2))
    have inBounds : count < UInt64.size := by
      rw [UInt64.size]
      omega
    rw [if_neg negative, run_bind_of_ok (run_asCount counts inBounds storage)]
    by_cases outside : size ≤ count
    · rw [if_pos outside, Counter.index?_eq_none_iff.2 (.inr (by omega))]
      rfl
    · rw [if_neg outside,
        Counter.index?_eq_some_iff.2 ⟨counts, Nat.not_le.1 outside⟩]
      rfl

theorem run_fetch? (storage : Storage table) :
    fetch?.run storage = .ok storage.machine.fetch? storage := by
  rw [fetch?, run_bind_of_ok (EStateM.run_get storage),
    run_bind_of_ok (run_position? storage _), Machine.fetch?]
  change _ = EStateM.Result.ok ((storage.counter.index?
    storage.instructions.size).bind (storage.instructions[·]?)) storage
  cases positioned : storage.counter.index? storage.instructions.size with
  | none => rfl
  | some position =>
    have inside := (Counter.index?_eq_some_iff.1 positioned).2
    simp only [Option.bind_some, Array.getElem?_eq_getElem inside]
    rfl

/-- The number of instructions before one is appended is found by subtraction
from the number after it. -/
theorem run_queue (few : storage.assembled < 2 ^ 63)
    (instruction : Instruction) :
    (queue instruction).run storage =
      .ok (storage.queue instruction).2 (storage.queue instruction).1 := by
  have inBounds : storage.assembled + 1 < UInt64.size := by
    rw [UInt64.size]
    omega
  have next : (storage.assembled : Int) + 1 = (storage.assembled + 1 : Nat) :=
    rfl
  have last : ((storage.assembled + 1 : Nat) : Int) - 1 = storage.assembled := by
    omega
  rw [queue, run_bind_of_ok (EStateM.run_modify _ storage),
    run_bind_of_ok (EStateM.run_get _),
    run_bind_of_ok (run_asCount next inBounds _),
    run_bind_of_ok (EStateM.run_modify _ _),
    run_bind_of_ok (run_asCount last (Nat.lt_of_succ_lt inBounds) _),
    Storage.queue, Nat.add_sub_cancel]
  rfl

variable [SlotTable table]

theorem exists_run_place? (coherent : storage.Coherent) (name : Name) :
    ∃ place, (place? name).run storage = .ok place storage ∧
      place.map Place.register = storage.machine.registers.find? name := by
  cases found : storage.machine.registers.find? name with
  | none => exact ⟨none, run_place?_of_unbound coherent found, rfl⟩
  | some register =>
    obtain ⟨slot, _, _, run⟩ := run_place?_of_bound coherent found
    exact ⟨some ⟨slot, register⟩, run, rfl⟩

theorem run_write (coherent : storage.Coherent) (name : Name) (cell : Cell) :
    (write name cell).run storage = .ok () (storage.write name cell) := by
  cases found : storage.machine.registers.find? name with
  | none =>
    rw [write, run_bind_of_ok (run_place?_of_unbound coherent found),
      Storage.write, slot?_of_find?_eq_none coherent found]
    rfl
  | some register =>
    obtain ⟨slot, isSlot, inSlot, run⟩ := run_place?_of_bound coherent found
    rw [write, run_bind_of_ok run, write_of_slot isSlot]
    exact run_overwrite inSlot cell

/-- Whatever the label register holds, a label table is in it once it has been
given one. -/
theorem exists_run_ensureLabels [LawfulSlotTable table]
    (coherent : storage.Coherent) :
    ∃ slot changed, ensureLabels.run storage =
      .ok (slot, storage.machine.labelTable) changed := by
  have inSlot :=
    registers_provision coherent ⟨labelRegister, .labels .empty⟩
  obtain ⟨changed, _, run, _, _⟩ := run_ensureLabels (Prod.eta _).symm inSlot
  rw [← Machine.asLabels?_getD]
  exact ⟨_, changed, run⟩

/-- Up to the bound of words a label gets the address that it gets where
differences wrap around. -/
theorem run_labelLast (few : storage.assembled < 2 ^ 63)
    (arguments : List Argument) :
    (labelLast arguments).run storage = (label arguments).run storage := by
  cases accepted : Mnemonic.label.arity.accepts arguments.length with
  | false =>
    rw [labelLast, label, EStateM.run_bind, EStateM.run_bind,
      run_checkArity_of_not accepted]
  | true =>
    rw [labelLast, label, run_bind_of_ok (run_checkArity accepted storage),
      run_bind_of_ok (run_checkArity accepted storage)]
    cases isArgument : arguments[0]? with
    | none =>
      rw [argument, isArgument]
      rfl
    | some found =>
      rw [run_bind_of_ok (run_argument isArgument storage),
        run_bind_of_ok (run_argument isArgument storage)]
      cases found with
      | literal value => rfl
      | register name => rfl
      | label name =>
        simp only
        rw [run_bind_of_ok (EStateM.run_get storage),
          run_bind_of_ok (EStateM.run_get storage),
          run_bind_of_ok (run_asWord_of_count few storage)]

theorem run_operate [LawfulSlotTable table] (coherent : storage.Coherent)
    (few : storage.assembled < 2 ^ 63) (mnemonic : Mnemonic)
    (arguments : List Argument) :
    (operate mnemonic arguments).run storage =
      settled storage (storage.execute mnemonic arguments) := by
  rw [← run_execute coherent]
  cases mnemonic with
  | label => exact run_labelLast few arguments
  | mov | inc | dec | cmp | jump => rfl

/-- A command statement by statement does what it does as a whole, or nothing if
it refuses. -/
theorem exists_run_perform [LawfulSlotTable table] (coherent : storage.Coherent)
    (few : storage.assembled < 2 ^ 63) (command : Command) :
    ∃ result, (perform command).run storage = settled storage result ∧
      storage.settle result = storage.perform command := by
  cases command with
  | provision register => exact ⟨.ok _, rfl, rfl⟩
  | queue instruction =>
    refine ⟨.ok (storage.queue instruction).1, ?_, rfl⟩
    rw [perform, run_bind_of_ok (run_queue few instruction)]
    rfl
  | jump target => exact ⟨_, run_jumpTo storage target, rfl⟩
  | advance => exact ⟨.ok _, rfl, rfl⟩
  | write name cell => exact ⟨.ok _, run_write coherent name cell, rfl⟩
  | compare difference =>
    exact ⟨.ok _, run_setComparison coherent difference, rfl⟩
  | changeLabels change => exact ⟨.ok _, run_changeLabels coherent change, rfl⟩
  | execute mnemonic arguments =>
    exact ⟨_, run_operate coherent few mnemonic arguments, rfl⟩

theorem run_attempt_perform [LawfulSlotTable table]
    (coherent : storage.Coherent) (few : storage.assembled < 2 ^ 63)
    (command : Command) :
    (attempt (perform command)).run storage =
      .ok () (storage.perform command) := by
  obtain ⟨result, run, settles⟩ := exists_run_perform coherent few command
  rw [run_attempt_of_settled run, settles]

/-- Commands go on to the end if there are few instructions in the end. -/
theorem run_performAll [LawfulSlotTable table] (coherent : storage.Coherent)
    {commands : List Command}
    (few : (storage.performAll commands).assembled < 2 ^ 63) :
    (performAll commands).run storage =
      .ok () (storage.performAll commands) := by
  induction commands generalizing storage with
  | nil => rfl
  | cons command rest induction =>
    have fewBefore : storage.assembled < 2 ^ 63 :=
      Nat.lt_of_le_of_lt (coherent.assembled_le_performAll (command :: rest)) few
    rw [performAll,
      run_bind_of_ok (run_attempt_perform coherent fewBefore command)]
    exact induction (coherent.perform command) few

/-- No procedure breaks down on a storage.  Those that only look something up
find what the machine has there.  Whatever is put into the label register, there
is a label table in it when one is asked for.  Operations and commands succeed or
refuse as they do as a whole. -/
structure RunsThrough (storage : Storage table) : Prop where
  fetches : fetch?.run storage = .ok storage.machine.fetch? storage
  finds : ∀ name, ∃ place, (place? name).run storage = .ok place storage ∧
    place.map Place.register = storage.machine.registers.find? name
  compares : comparison.run storage = .ok storage.machine.comparison storage
  looksUp : labels?.run storage = .ok storage.machine.labels? storage
  tables : ∀ cell, ∃ slot changed,
    ensureLabels.run (storage.write labelRegister cell) =
      .ok (slot, (storage.write labelRegister cell).machine.labelTable) changed
  operates : ∀ mnemonic arguments, (operate mnemonic arguments).run storage =
    settled storage (storage.execute mnemonic arguments)
  performs : ∀ command, ¬ BreaksDown (perform command) storage ∧
    (attempt (perform command)).run storage = .ok () (storage.perform command)

theorem runsThrough_of_few [LawfulSlotTable table]
    (coherent : storage.Coherent) (few : storage.assembled < 2 ^ 63) :
    RunsThrough storage where
  fetches := run_fetch? storage
  finds := exists_run_place? coherent
  compares := run_comparison coherent
  looksUp := run_labels? coherent
  tables := fun cell =>
    exists_run_ensureLabels (coherent.write labelRegister cell)
  operates := run_operate coherent few
  performs := by
    intro command
    obtain ⟨_, run, _⟩ := exists_run_perform coherent few command
    exact ⟨not_breaksDown_of_settled run,
      run_attempt_perform coherent few command⟩

/-- Whatever is done to a machine with fewer than `2 ^ 63` instructions, nothing
breaks down on the way, and nothing would break down afterwards, whether the
counter stands at an instruction or not. -/
theorem no_statement_breaks_down [LawfulSlotTable table] (names : List Name)
    (provisioned : List Register) (commands : List Command)
    (reached : storage = (ofRegisters names provisioned).performAll commands)
    (few : storage.instructions.size < 2 ^ 63) :
    (performAll commands).run (ofRegisters names provisioned) =
        .ok () storage ∧
      ∀ counter : Counter, RunsThrough { storage with counter } := by
  have coherentFresh : (ofRegisters names provisioned : Storage table).Coherent :=
    coherent_ofRegisters names provisioned
  have coherent : storage.Coherent := by
    rw [reached]
    exact coherentFresh.performAll commands
  have fewCounted : storage.assembled < 2 ^ 63 := by
    rw [coherent.counted]
    exact few
  constructor
  · rw [reached] at fewCounted ⊢
    exact run_performAll coherentFresh fewCounted
  · intro counter
    exact runsThrough_of_few (coherent.atCounter counter) fewCounted

/-- Commands after which the label register holds a number and the counter
stands in front of the first instruction. -/
def spoilsLabels : List Command :=
  [.queue ⟨.ofMnemonic .inc, [.register "ax"]⟩,
    .execute .label [.label "top"], .write "labels" (.number 4), .jump (-1),
    .execute .mov []]

theorem spoilsLabels_runs_through :
    ∃ storage : Storage PairTable,
      storage = (ofRegisters ["ax"] []).performAll spoilsLabels ∧
        storage.instructions.size < 2 ^ 63 ∧
        (performAll spoilsLabels).run (ofRegisters ["ax"] []) =
          .ok () storage ∧
        storage.machine.labels? = none ∧
        fetch?.run { storage with counter := ⟨Int64.minValue⟩ } =
          .ok none { storage with counter := ⟨Int64.minValue⟩ } ∧
        ¬ BreaksDown (perform (.execute .label [.label "end"])) storage := by
  obtain ⟨run, runsThrough⟩ := no_statement_breaks_down ["ax"] [] spoilsLabels
    (rfl : (_ : Storage PairTable) = _) (by decide)
  refine ⟨_, rfl, by decide, run, by decide, ?_, ?_⟩
  · exact (runsThrough ⟨Int64.minValue⟩).fetches
  · exact ((runsThrough _).performs _).1

/-- At the bound the address in front of the next instruction is no word any
more. -/
theorem label_breaks_down_at_bound (full : storage.assembled = 2 ^ 63)
    (name : Name) :
    BreaksDown (perform (.execute .label [.label name])) storage := by
  have noWord : Word.ofInt? ((Int64.ofNat storage.assembled).toInt - 1) =
      none := by
    rw [full]
    decide
  have breaks : (asWord ((Int64.ofNat storage.assembled).toInt - 1)).run
      storage = .error .breakdown storage := by
    rw [asWord, noWord]
    rfl
  refine ⟨storage, ?_⟩
  change (labelLast [.label name]).run storage = _
  rw [labelLast, run_bind_of_ok (run_checkArity rfl storage),
    run_bind_of_ok (run_argument List.getElem?_cons_zero storage)]
  simp only
  rw [run_bind_of_ok (EStateM.run_get storage), EStateM.run_bind, breaks]

end Procedure

end RegisterMachine

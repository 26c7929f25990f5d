import Mathlib.Data.List.Nodup
import RegisterMachine.Proofs.StandardDialect

/-!
# The order of bindings

A bank built by provisioning holds the first register of each name, in the
order in which the names were first asked for.  Its names are distinct, so the
slots are the positions of the names, and a register stays in its slot while
others are bound after it.
-/

namespace RegisterMachine

namespace Register

/-- The first register of each name, in order. -/
def firstOfEachName (registers : List Register) : List Register :=
  registers.eraseDupsBy fun later first => later.name == first.name

theorem firstOfEachName_cons (register : Register) (rest : List Register) :
    firstOfEachName (register :: rest) =
      register ::
        firstOfEachName (rest.filter fun later => later.name ≠ register.name) := by
  rw [firstOfEachName, List.eraseDupsBy_cons]
  simp [firstOfEachName]

end Register

namespace RegisterBank

variable {bank : RegisterBank} {register : Register} {name : Name} {slot : Nat}
  {cell : Cell}

/-- Provisioning appends the first register of each name that is not bound
yet. -/
theorem toList_provisionAll (bank : RegisterBank) (registers : List Register) :
    (bank.provisionAll registers).toList =
      bank.toList ++ Register.firstOfEachName
        (registers.filter fun register => register.name ∉ bank.names) := by
  induction registers generalizing bank with
  | nil => simp [provisionAll, Register.firstOfEachName]
  | cons register rest induction =>
    have step : bank.provisionAll (register :: rest) =
        (bank.provision register).provisionAll rest := rfl
    rw [step, induction]
    by_cases bound : register.name ∈ bank.names
    · rw [provision_of_mem bound]
      simp [bound]
    · rw [provision_of_not_mem bound, List.filter_cons_of_pos (by simpa),
        Register.firstOfEachName_cons, List.filter_filter]
      have sameRest : ∀ later : Register,
          later.name ∉ (⟨bank.toList ++ [register]⟩ : RegisterBank).names ↔
            later.name ≠ register.name ∧ later.name ∉ bank.names := by
        intro later
        simp [names, and_comm]
      simp [sameRest]

theorem toList_provisionAll_empty (registers : List Register) :
    (empty.provisionAll registers).toList =
      Register.firstOfEachName registers := by
  have unbound : registers.filter (fun register =>
      register.name ∉ empty.names) = registers :=
    List.filter_eq_self.2 fun _ _ => by simp [empty, names]
  rw [toList_provisionAll, unbound]
  rfl

theorem nodup_names_provisionAll (distinct : bank.names.Nodup)
    (registers : List Register) : (bank.provisionAll registers).names.Nodup := by
  induction registers generalizing bank with
  | nil => exact distinct
  | cons register rest induction =>
    exact induction (nodup_names_provision register distinct)

/-- Where names are distinct, the slot of a name is the one place where it
stands. -/
theorem slot?_eq_some_iff (distinct : bank.names.Nodup) :
    bank.slot? name = some slot ↔ bank.names[slot]? = some name := by
  rw [slot?_eq, List.findIdx?_eq_some_iff_getElem, List.getElem?_eq_some_iff]
  constructor
  · rintro ⟨inside, isName, _⟩
    exact ⟨inside, by simpa using isName⟩
  · rintro ⟨inside, isName⟩
    refine ⟨inside, by simpa using isName, fun earlier before isEarlier => ?_⟩
    have sameName : bank.names[earlier] = bank.names[slot] := by
      rw [isName]
      simpa using isEarlier
    have := (distinct.getElem_inj_iff).1 sameName
    omega

theorem find?_eq_bind_slot? (bank : RegisterBank) (name : Name) :
    bank.find? name = (bank.slot? name).bind (bank.toList[·]?) :=
  List.find?_eq_bind_findIdx?_getElem?

theorem slot?_of_getElem? (distinct : bank.names.Nodup)
    (isBound : bank.toList[slot]? = some register) :
    bank.slot? register.name = some slot := by
  apply (slot?_eq_some_iff distinct).2
  rw [names, List.getElem?_map, isBound]
  rfl

theorem read?_of_getElem? (distinct : bank.names.Nodup)
    (isBound : bank.toList[slot]? = some register) :
    bank.read? register.name = some register.cell := by
  rw [read?, find?_eq_bind_slot?, slot?_of_getElem? distinct isBound,
    Option.bind_some, isBound]
  rfl

theorem slot?_eq_none_iff : bank.slot? name = none ↔ name ∉ bank.names := by
  rw [← find?_eq_none_iff, slot?, find?, List.findIdx?_eq_none_iff,
    List.find?_eq_none]
  simp

theorem exists_read?_of_slot? (isSlot : bank.slot? name = some slot) :
    ∃ cell, bank.read? name = some cell := by
  apply Option.isSome_iff_exists.1
  rw [read?_isSome, find?_isSome_iff]
  by_contra unbound
  cases isSlot.symm.trans (slot?_eq_none_iff.2 unbound)

/-- A new register gets the slot after the last one. -/
theorem slot?_provision_of_not_mem (unbound : register.name ∉ bank.names)
    (wanted : Name) :
    (bank.provision register).slot? wanted =
      if wanted = register.name then some bank.toList.length
      else bank.slot? wanted := by
  rw [provision_of_not_mem unbound, slot?, List.findIdx?_append]
  change (bank.slot? wanted).or _ = _
  by_cases same : wanted = register.name
  · subst same
    simp [slot?_eq_none_iff.2 unbound]
  · simp [same, Ne.symm same]

theorem names_prefix_provision (bank : RegisterBank) (register : Register) :
    bank.names <+: (bank.provision register).names := by
  rw [names_provision]
  split
  next => exact List.prefix_rfl
  next => exact List.prefix_append _ _

/-- What a register is bound with does not matter if it is written to. -/
theorem write_provision (bank : RegisterBank) (first second cell : Cell) :
    (bank.provision ⟨name, first⟩).write name cell =
      (bank.provision ⟨name, second⟩).write name cell := by
  by_cases bound : name ∈ bank.names
  · rw [provision_of_mem bound, provision_of_mem bound]
  · rw [provision_of_not_mem bound, provision_of_not_mem bound, write_append,
      write_append]
    simp [write]

/-- Changing the register in the slot of a name is writing to this name. -/
theorem modify_eq_write (distinct : bank.names.Nodup)
    (isSlot : bank.slot? name = some slot) (reads : bank.read? name = some cell)
    (change : Cell → Cell) :
    (⟨bank.toList.modify slot fun register =>
        ⟨register.name, change register.cell⟩⟩ : RegisterBank) =
      bank.write name (change cell) := by
  have inSlot := (slot?_eq_some_iff distinct).1 isSlot
  rw [names, List.getElem?_map, Option.map_eq_some_iff] at inSlot
  obtain ⟨register, isRegister, sameName⟩ := inSlot
  have sameCell : register.cell = cell := by
    have read := read?_of_getElem? distinct isRegister
    rw [sameName, reads] at read
    exact (Option.some.inj read).symm
  rw [write]
  congr 1
  apply List.ext_getElem?
  intro place
  rw [List.getElem?_modify, List.getElem?_map]
  by_cases here : slot = place
  · subst here
    simp [isRegister, sameName, sameCell]
  · cases there : bank.toList[place]? with
    | none => rfl
    | some other =>
      have otherName : other.name ≠ name := by
        intro again
        have otherSlot := slot?_of_getElem? distinct there
        rw [again, isSlot] at otherSlot
        exact here (Option.some.inj otherSlot)
      simp [here, otherName]

end RegisterBank

end RegisterMachine

import RegisterMachine.Proofs.BindingOrder
import RegisterMachine.Proofs.LargerDialects

/-!
# Declaring a dialect

A dialect can be declared exactly when the names of its registers and of its
operations are distinct and no operation asks for a register of the user.
Otherwise the declaration is refused for the first name that collides with what
stands before it.  In a declared dialect every name stands for one thing, a
register, an operation or nothing, and every program starts on a machine that
binds the user registers to the first slots, followed by the registers that
operations ask for.
-/

namespace RegisterMachine

namespace Declaration

variable {registers bound : List Name} {declarations : List Declaration}
  {name : Name}

/-- No name is bound twice, and no operation asks for a register of the
user. -/
def Clear (registers : List Name) (declarations : List Declaration) : Prop :=
  (boundNames declarations).Nodup ∧
    ∀ name, provision name ∈ declarations → name ∉ registers

/-- The declaration cannot be made because of `name` where the names `bound`
are bound already. -/
inductive Collides (registers bound : List Name) : Declaration → Name → Prop
  /-- The name is bound already. -/
  | again {name : Name} (isBound : name ∈ bound) :
      Collides registers bound (binding name) name
  /-- An operation asks for a register of the user. -/
  | reserved {name : Name} (isRegister : name ∈ registers) :
      Collides registers bound (provision name) name

/-- The declarations up to some point are clear, and the next one collides
because of `name`. -/
def FirstCollision (registers : List Name) (declarations : List Declaration)
    (name : Name) : Prop :=
  ∃ before declaration after,
    declarations = before ++ declaration :: after ∧ Clear registers before ∧
      Collides registers (boundNames before) declaration name

theorem collision?_eq_none_iff_clear :
    collision? registers [] declarations = none ↔
      Clear registers declarations := by
  simp [collision?_eq_none_iff, Clear]

theorem boundNames_append (before rest : List Declaration) :
    boundNames (before ++ rest) = boundNames before ++ boundNames rest :=
  List.filterMap_append

theorem collision?_append (registers bound : List Name)
    (before rest : List Declaration) :
    collision? registers bound (before ++ rest) =
      (collision? registers bound before).or
        (collision? registers ((boundNames before).reverse ++ bound) rest) := by
  induction before generalizing bound with
  | nil => rfl
  | cons declaration before induction =>
    cases declaration with
    | binding name =>
      by_cases isBound : name ∈ bound
      · simp [collision?, isBound]
      · simp [collision?, isBound, induction]
    | provision name =>
      by_cases isRegister : name ∈ registers
      · simp [collision?, isRegister]
      · simp [collision?, isRegister, induction]

theorem collision?_singleton_eq_some_iff {declaration : Declaration} :
    collision? registers bound [declaration] = some name ↔
      Collides registers bound declaration name := by
  constructor
  · intro found
    cases declaration with
    | binding other =>
      by_cases isBound : other ∈ bound
      · obtain rfl : other = name := by simpa [collision?, isBound] using found
        exact .again isBound
      · simp [collision?, isBound] at found
    | provision other =>
      by_cases isRegister : other ∈ registers
      · obtain rfl : other = name := by
          simpa [collision?, isRegister] using found
        exact .reserved isRegister
      · simp [collision?, isRegister] at found
  · intro collides
    cases collides with
    | again isBound => simp [collision?, isBound]
    | reserved isRegister => simp [collision?, isRegister]

/-- A collision that is found has nothing but accepted declarations before
it. -/
theorem exists_of_collision?_eq_some
    (found : collision? registers bound declarations = some name) :
    ∃ before declaration after,
      declarations = before ++ declaration :: after ∧
        collision? registers bound before = none ∧
        Collides registers ((boundNames before).reverse ++ bound) declaration
          name := by
  induction declarations generalizing bound with
  | nil => cases found
  | cons first rest induction =>
    have peeled := collision?_append registers bound [first] rest
    rw [List.singleton_append, found] at peeled
    cases head : collision? registers bound [first] with
    | some other =>
      rw [head, Option.some_or] at peeled
      obtain rfl := Option.some.inj peeled
      exact ⟨[], first, rest, rfl, rfl,
        collision?_singleton_eq_some_iff.1 head⟩
    | none =>
      rw [head, Option.none_or] at peeled
      obtain ⟨before, declaration, after, rfl, clear, collides⟩ :=
        induction peeled.symm
      refine ⟨first :: before, declaration, after, rfl, ?_, ?_⟩
      · rw [← List.singleton_append, collision?_append, head, Option.none_or]
        exact clear
      · rw [← List.singleton_append, boundNames_append]
        simpa using collides

theorem Collides.of_mem {other : List Name} {declaration : Declaration}
    (collides : Collides registers bound declaration name)
    (same : ∀ name ∈ bound, name ∈ other) :
    Collides registers other declaration name := by
  cases collides with
  | again isBound => exact .again (same _ isBound)
  | reserved isRegister => exact .reserved isRegister

theorem collision?_eq_some_iff :
    collision? registers [] declarations = some name ↔
      FirstCollision registers declarations name := by
  constructor
  · intro found
    obtain ⟨before, declaration, after, rfl, clear, collides⟩ :=
      exists_of_collision?_eq_some found
    refine ⟨before, declaration, after, rfl,
      collision?_eq_none_iff_clear.1 clear, collides.of_mem fun _ isBound => ?_⟩
    simpa using isBound
  · rintro ⟨before, declaration, after, rfl, clear, collides⟩
    have reached : collision? registers ((boundNames before).reverse ++ [])
        [declaration] = some name := by
      apply collision?_singleton_eq_some_iff.2
      exact collides.of_mem fun _ isBound => by simpa using isBound
    rw [collision?_append, collision?_eq_none_iff_clear.2 clear,
      Option.none_or, ← List.singleton_append, collision?_append, reached,
      Option.some_or]

end Declaration

/-- What `name` stands for where these registers and operations are declared:
one of the registers, the operation that it names, or nothing. -/
inductive StandsFor (registers : List Name) (operations : List Operation)
    (name : Name) : Option Entry → Prop
  | register (isRegister : name ∈ registers) :
      StandsFor registers operations name (some .register)
  | operation {operation : Operation} (isOperation : operation ∈ operations)
      (isName : name ∈ operation.names) :
      StandsFor registers operations name (some (.operation operation))
  | unknown (notRegister : name ∉ registers)
      (unnamed : ∀ operation ∈ operations, name ∉ operation.names) :
      StandsFor registers operations name none

namespace Dialect

variable {dialect : Dialect} {registers : List Name}
  {operations : List Operation} {name : Name}

theorem declare_eq_error_iff {fault : Fault} :
    declare registers operations = .error fault ↔
      ∃ name, fault = .nameCollision name ∧
        Declaration.collision? registers []
          (Declaration.ofDialect registers operations) = some name := by
  unfold declare
  split
  next name found => simp [found, eq_comm]
  next found => simp [found]

theorem entry?_eq_none_iff :
    dialect.entry? name = none ↔
      name ∉ dialect.registers ∧
        ∀ operation ∈ dialect.operations, name ∉ operation.names := by
  have unnamed : dialect.operation? name = none ↔
      ∀ operation ∈ dialect.operations, name ∉ operation.names := by
    simp [operation?]
  rw [← isRegister_iff, entry?]
  split
  next isRegister => simp [isRegister]
  next notRegister => simp [notRegister, unnamed]

/-- A name stands for what the dialect takes it for. -/
theorem standsFor_iff {entry : Option Entry} :
    StandsFor dialect.registers dialect.operations name entry ↔
      dialect.entry? name = entry := by
  constructor
  · intro standsFor
    cases standsFor with
    | register isRegister => exact entry?_eq_register_iff.2 isRegister
    | operation isOperation isName =>
      exact entry?_eq_operation_iff.2 ⟨isOperation, isName⟩
    | unknown notRegister unnamed =>
      exact entry?_eq_none_iff.2 ⟨notRegister, unnamed⟩
  · intro known
    cases entry with
    | none =>
      obtain ⟨notRegister, unnamed⟩ := entry?_eq_none_iff.1 known
      exact .unknown notRegister unnamed
    | some entry =>
      cases entry with
      | register => exact .register (entry?_eq_register_iff.1 known)
      | operation operation =>
        obtain ⟨isOperation, isName⟩ := entry?_eq_operation_iff.1 known
        exact .operation isOperation isName

/-- The answers to questions about a name that stands for this entry. -/
def KnowsAs (dialect : Dialect) (name : Name) : Option Entry → Prop
  | some .register =>
    dialect.isRegister name = true ∧ dialect.operation? name = none ∧
      dialect.reference name = .ok (.register name)
  | some (.operation operation) =>
    dialect.isRegister name = false ∧
      dialect.operation? name = some operation ∧
      dialect.reference name = .error (.notARegister name)
  | none =>
    dialect.isRegister name = false ∧ dialect.operation? name = none ∧
      dialect.reference name = .error (.unknownName name)

/-- Names are looked up as what they stand for. -/
theorem knowsAs_entry? (dialect : Dialect) (name : Name) :
    dialect.KnowsAs name (dialect.entry? name) := by
  cases known : dialect.entry? name with
  | none =>
    obtain ⟨notRegister, unnamed⟩ := entry?_eq_none_iff.1 known
    refine ⟨?_, ?_, ?_⟩
    · simpa [isRegister] using notRegister
    · simpa [operation?] using unnamed
    · simp [reference, referenceFault?, known]
  | some entry =>
    cases entry with
    | register =>
      have isRegister := entry?_eq_register_iff.1 known
      refine ⟨isRegister_iff.2 isRegister, ?_, ?_⟩
      · rw [Option.eq_none_iff_forall_ne_some]
        intro operation found
        -- The name of an operation has that operation as its entry.
        have other := entry?_eq_operation_iff.2 (operation?_eq_some_iff.1 found)
        cases known.symm.trans other
      · simp [reference, referenceFault?, known]
    | operation operation =>
      have isOperation := entry?_eq_operation_iff.1 known
      refine ⟨?_, operation?_eq_some_iff.2 isOperation, ?_⟩
      · rw [Bool.eq_false_iff, ne_eq, isRegister_iff,
          ← entry?_eq_register_iff, known]
        simp
      · simp [reference, referenceFault?, known]

theorem toList_provisioned (dialect : Dialect) :
    dialect.provisioned.toList =
      Register.firstOfEachName
        (dialect.operations.flatMap Operation.provisions) :=
  RegisterBank.toList_provisionAll_empty _

/-- A program starts with the user registers, each holding zero, followed by
the registers that operations ask for. -/
theorem registers_machine (dialect : Dialect) :
    dialect.machine.registers =
      ⟨dialect.registers.map .zero ++ dialect.provisioned.toList⟩ := by
  have first : RegisterBank.empty.provisionAll (dialect.registers.map .zero) =
      ⟨dialect.registers.map .zero⟩ := by
    refine RegisterBank.provisionAll_of_fresh ?_
    simpa [RegisterBank.empty, RegisterBank.names, Register.zero,
      Function.comp_def] using (List.nodup_append.1 dialect.distinct).1
  have unbound : dialect.requested.filter (fun register =>
      register.name ∉
        (⟨dialect.registers.map .zero⟩ : RegisterBank).names) =
      dialect.requested := by
    refine List.filter_eq_self.2 fun register isRequested => ?_
    obtain ⟨operation, isOperation, isProvided⟩ :=
      List.mem_flatMap.1 isRequested
    rw [RegisterBank.names_zero]
    simpa using dialect.apart operation isOperation register isProvided
  have toList := RegisterBank.toList_provisionAll
    ⟨dialect.registers.map .zero⟩ dialect.requested
  rw [unbound] at toList
  rw [machine, Machine.ofRegisters, RegisterBank.provisionAll_append, first,
    toList_provisioned, ← requested, ← toList]

theorem nodup_names_machine (dialect : Dialect) :
    dialect.machine.registers.names.Nodup :=
  RegisterBank.nodup_names_provisionAll (by simp [RegisterBank.empty,
    RegisterBank.names]) _

theorem bound_in_machine {slot : Nat} {register : Register}
    (isBound : dialect.machine.registers.toList[slot]? = some register) :
    dialect.machine.registers.slot? register.name = some slot ∧
      dialect.machine.read? register.name = some register.cell :=
  ⟨RegisterBank.slot?_of_getElem? dialect.nodup_names_machine isBound,
    RegisterBank.read?_of_getElem? dialect.nodup_names_machine isBound⟩

/-- The dialect is made of these registers and operations.  Each name stands
for one thing and is looked up as that, and a program starts with the user
registers in the first slots and the registers of the operations behind
them. -/
structure MadeOf (registers : List Name) (operations : List Operation)
    (dialect : Dialect) : Prop where
  sameRegisters : dialect.registers = registers
  oneEntry : ∀ name, ∃! entry, StandsFor registers operations name entry
  known : ∀ name entry, StandsFor registers operations name entry →
    dialect.KnowsAs name entry
  firstRequests : dialect.provisioned.toList =
    Register.firstOfEachName (operations.flatMap Operation.provisions)
  start : dialect.machine =
    ⟨#[], .start, ⟨registers.map .zero ++ dialect.provisioned.toList⟩⟩
  userSlot : ∀ (slot : Nat) name, registers[slot]? = some name →
    dialect.machine.registers.slot? name = some slot ∧
      dialect.machine.read? name = some (.number 0)
  providedSlot : ∀ (place : Nat) register,
    dialect.provisioned.toList[place]? = some register →
    dialect.machine.registers.slot? register.name =
        some (registers.length + place) ∧
      dialect.machine.read? register.name = some register.cell

theorem madeOf (dialect : Dialect) :
    MadeOf dialect.registers dialect.operations dialect where
  sameRegisters := rfl
  oneEntry := fun name =>
    ⟨dialect.entry? name, standsFor_iff.2 rfl,
      fun _ standsFor => (standsFor_iff.1 standsFor).symm⟩
  known := by
    intro name entry standsFor
    obtain rfl := standsFor_iff.1 standsFor
    exact knowsAs_entry? dialect name
  firstRequests := toList_provisioned dialect
  start := by
    rw [← registers_machine]
    rfl
  userSlot := by
    intro slot name isRegister
    have inside := (List.getElem?_eq_some_iff.1 isRegister).1
    have isBound : dialect.machine.registers.toList[slot]? =
        some (.zero name) := by
      rw [registers_machine, List.getElem?_append_left (by simpa),
        List.getElem?_map, isRegister]
      rfl
    exact bound_in_machine isBound
  providedSlot := by
    intro place register isProvided
    apply bound_in_machine
    rw [registers_machine, List.getElem?_append_right (by simp)]
    simpa using isProvided

/-- A dialect can be declared exactly when the names of its registers and
operations are distinct and no operation asks for a register of the user.  A
declaration that is refused is refused for the first collision, and one that
succeeds gives the dialect made of these registers and operations. -/
theorem declares_collision_free_names (registers : List Name)
    (operations : List Operation) :
    ((∃ dialect, declare registers operations = .ok dialect) ↔
      (registers ++ operations.flatMap Operation.names).Nodup ∧
        ∀ operation ∈ operations, ∀ register ∈ operation.provisions,
          register.name ∉ registers) ∧
    (∀ fault, declare registers operations = .error fault ↔
      ∃ name, fault = .nameCollision name ∧
        Declaration.FirstCollision registers
          (Declaration.ofDialect registers operations) name) ∧
    ∀ dialect, declare registers operations = .ok dialect →
      MadeOf registers operations dialect := by
  refine ⟨⟨?_, ?_⟩, ?_, ?_⟩
  · rintro ⟨dialect, declared⟩
    obtain ⟨rfl, rfl⟩ := declare_eq_ok_iff.1 declared
    exact ⟨dialect.distinct, dialect.apart⟩
  · rintro ⟨distinct, apart⟩
    exact ⟨⟨registers, operations, distinct, apart⟩,
      declare_eq_ok_iff.2 ⟨rfl, rfl⟩⟩
  · intro fault
    rw [declare_eq_error_iff]
    simp only [Declaration.collision?_eq_some_iff]
  · intro dialect declared
    obtain ⟨rfl, rfl⟩ := declare_eq_ok_iff.1 declared
    exact dialect.madeOf

/-- Asks for `temp` and for a register with the name of another operation. -/
def exchanging : Operation :=
  ⟨"swap", ["exchange"], .instruction, .exactly 2,
    [⟨"temp", .number 7⟩, .zero "tick"], none⟩

/-- Asks for `temp` too, and for a register with the name of `exchanging`. -/
def ticking : Operation :=
  ⟨"tick", ["step"], .immediate, .exactly 0,
    [⟨"temp", .number 9⟩, .zero "swap"], none⟩

theorem shared_requests_declared_unless_reserved :
    (∃ dialect, declare ["ax", "bx"] [exchanging, ticking] = .ok dialect ∧
      MadeOf ["ax", "bx"] [exchanging, ticking] dialect ∧
      dialect.provisioned.toList =
        [⟨"temp", .number 7⟩, .zero "tick", .zero "swap"] ∧
      dialect.machine.registers.slot? "swap" = some 4 ∧
      dialect.KnowsAs "step" (some (.operation ticking))) ∧
    declare ["ax", "temp"] [exchanging, ticking] =
      .error (.nameCollision "temp") ∧
    declare ["step"] [exchanging, ticking] = .error (.nameCollision "step") := by
  refine ⟨?_, ?_, ?_⟩
  · have declares := declares_collision_free_names ["ax", "bx"]
      [exchanging, ticking]
    obtain ⟨dialect, declared⟩ := declares.1.2 ⟨by decide, by decide⟩
    have made := declares.2.2 dialect declared
    have shared : dialect.provisioned.toList =
        [⟨"temp", .number 7⟩, .zero "tick", .zero "swap"] :=
      made.firstRequests.trans (by decide)
    have third : dialect.provisioned.toList[2]? = some (.zero "swap") := by
      rw [shared]
      rfl
    exact ⟨dialect, declared, made, shared, (made.providedSlot 2 _ third).1,
      made.known "step" _ (.operation (by decide) (by decide))⟩
  · apply ((declares_collision_free_names _ _).2.1 _).2
    exact ⟨"temp", rfl, [.binding "ax", .binding "temp", .binding "swap",
      .binding "exchange"], .provision "temp", _, rfl,
      Declaration.collision?_eq_none_iff_clear.1 (by decide),
      .reserved (by decide)⟩
  · apply ((declares_collision_free_names _ _).2.1 _).2
    exact ⟨"step", rfl, [.binding "step", .binding "swap", .binding "exchange",
      .provision "temp", .provision "tick", .binding "tick"],
      .binding "step", _, rfl,
      Declaration.collision?_eq_none_iff_clear.1 (by decide),
      .again (by decide)⟩

end Dialect

end RegisterMachine

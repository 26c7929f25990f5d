import RegisterMachine.Machine

/-!
# Dialects

A dialect fixes the names that programs can use: the registers of the user,
whose contents are the results of a run, and the operations.  All these names
are different, and no operation asks for a register with the name of a user
register, so a program cannot interfere with the registers that operations keep
for themselves.  `Dialect.declare` checks this and reports the first name
declared twice.
-/

namespace RegisterMachine

/-- The names that programs can use. -/
structure Dialect where
  registers : List Name
  operations : List Operation
  distinct : (registers ++ operations.flatMap Operation.names).Nodup
  apart : ∀ operation ∈ operations, ∀ register ∈ operation.provisions,
    register.name ∉ registers

/-- A part of the declaration of a dialect. -/
inductive Declaration where
  /-- A register or an operation gets a name. -/
  | binding (name : Name)
  /-- An operation asks for a register. -/
  | provision (name : Name)

namespace Declaration

def boundName? : Declaration → Option Name
  | binding name => some name
  | provision _ => none

/-- The names that declarations bind, in order. -/
def boundNames (declarations : List Declaration) : List Name :=
  declarations.filterMap boundName?

def ofOperation (operation : Operation) : List Declaration :=
  operation.names.map binding ++
    operation.provisions.map fun register => provision register.name

/-- The declarations of a dialect, in the order in which they are checked. -/
def ofDialect (registers : List Name) (operations : List Operation) :
    List Declaration :=
  registers.map binding ++ operations.flatMap ofOperation

/-- The first name that cannot be declared: one that is bound already, or that
of a user register where an operation asks for a register. -/
def collision? (registers : List Name) :
    List Name → List Declaration → Option Name
  | _, [] => none
  | bound, binding name :: rest =>
    if name ∈ bound then some name
    else collision? registers (name :: bound) rest
  | bound, provision name :: rest =>
    if name ∈ registers then some name
    else collision? registers bound rest

@[simp]
theorem boundNames_binding (name : Name) (rest : List Declaration) :
    boundNames (binding name :: rest) = name :: boundNames rest :=
  rfl

@[simp]
theorem boundNames_provision (name : Name) (rest : List Declaration) :
    boundNames (provision name :: rest) = boundNames rest :=
  rfl

theorem boundNames_ofOperation (operation : Operation) :
    boundNames (ofOperation operation) = operation.names := by
  simp [boundNames, ofOperation, List.filterMap_append, List.filterMap_map,
    Function.comp_def, boundName?]

theorem boundNames_ofDialect (registers : List Name)
    (operations : List Operation) :
    boundNames (ofDialect registers operations) =
      registers ++ operations.flatMap Operation.names := by
  have ofEach : (fun operation => (ofOperation operation).filterMap boundName?) =
      Operation.names :=
    funext boundNames_ofOperation
  simp [boundNames, ofDialect, List.filterMap_append, List.filterMap_map,
    List.filterMap_flatMap, Function.comp_def, boundName?, ofEach]

theorem collision?_eq_none_iff (registers bound : List Name)
    (declarations : List Declaration) :
    collision? registers bound declarations = none ↔
      (boundNames declarations).Nodup ∧
        (∀ name ∈ boundNames declarations, name ∉ bound) ∧
        ∀ name, provision name ∈ declarations → name ∉ registers := by
  induction declarations generalizing bound with
  | nil => simp [collision?, boundNames]
  | cons declaration rest induction =>
    cases declaration with
    | binding name =>
      by_cases isBound : name ∈ bound
      · simp [collision?, isBound]
      · simp only [collision?, isBound, if_false, induction,
          boundNames_binding, List.nodup_cons, List.mem_cons, reduceCtorEq,
          false_or, not_or]
        constructor
        · rintro ⟨distinct, fresh, apart⟩
          refine ⟨⟨fun again => (fresh name again).1 rfl, distinct⟩, ?_, apart⟩
          rintro other (rfl | later)
          · exact isBound
          · exact (fresh other later).2
        · rintro ⟨⟨absent, distinct⟩, fresh, apart⟩
          refine ⟨distinct, fun other later => ⟨?_, fresh other (.inr later)⟩,
            apart⟩
          rintro rfl
          exact absent later
    | provision name =>
      by_cases isRegister : name ∈ registers
      · simp only [collision?, isRegister, if_true, reduceCtorEq, false_iff]
        rintro ⟨_, _, apart⟩
        exact apart name List.mem_cons_self isRegister
      · simp only [collision?, isRegister, if_false, induction,
          boundNames_provision, List.mem_cons, provision.injEq]
        refine and_congr_right fun _ => and_congr_right fun _ => ?_
        constructor
        · rintro apart other (rfl | later)
          · exact isRegister
          · exact apart other later
        · intro apart other later
          exact apart other (.inr later)

theorem provision_mem_ofDialect {name : Name} {registers : List Name}
    {operations : List Operation} :
    provision name ∈ ofDialect registers operations ↔
      ∃ operation ∈ operations, ∃ register ∈ operation.provisions,
        register.name = name := by
  simp [ofDialect, ofOperation]

/-- Declarations do not collide exactly when the names of registers and
operations are distinct and no operation asks for a user register. -/
theorem collision?_ofDialect_eq_none_iff {registers : List Name}
    {operations : List Operation} :
    collision? registers [] (ofDialect registers operations) = none ↔
      (registers ++ operations.flatMap Operation.names).Nodup ∧
        ∀ operation ∈ operations, ∀ register ∈ operation.provisions,
          register.name ∉ registers := by
  rw [collision?_eq_none_iff, boundNames_ofDialect]
  simp only [provision_mem_ofDialect, List.not_mem_nil, not_false_eq_true,
    implies_true, true_and]
  refine and_congr_right fun _ => ⟨?_, ?_⟩
  · intro apart operation isOperation register requested
    exact apart register.name
      ⟨operation, isOperation, register, requested, rfl⟩
  · rintro apart name ⟨operation, isOperation, register, requested, rfl⟩
    exact apart operation isOperation register requested

end Declaration

inductive Entry where
  | register
  | operation (operation : Operation)
deriving DecidableEq

namespace Dialect

/-- The dialect with these registers and operations, or the first name that is
declared twice. -/
def declare (registers : List Name) (operations : List Operation) :
    Except Fault Dialect :=
  match found : Declaration.collision? registers []
      (Declaration.ofDialect registers operations) with
  | some name => .error (.nameCollision name)
  | none =>
    have collisionFree := Declaration.collision?_ofDialect_eq_none_iff.1 found
    .ok ⟨registers, operations, collisionFree.1, collisionFree.2⟩

def standardRegisters : List Name :=
  ["ax", "bx", "cx", "dx"]

/-- Four registers with all basic operations. -/
def standard : Dialect where
  registers := standardRegisters
  operations := Operation.standard
  distinct := by decide
  apart := by decide

def isRegister (dialect : Dialect) (name : Name) : Bool :=
  dialect.registers.contains name

/-- The operation that can be invoked as `name`. -/
def operation? (dialect : Dialect) (name : Name) : Option Operation :=
  dialect.operations.find? fun operation => operation.names.contains name

def entry? (dialect : Dialect) (name : Name) : Option Entry :=
  if dialect.isRegister name then some .register
  else (dialect.operation? name).map .operation

/-- All registers that the operations ask for. -/
def requested (dialect : Dialect) : List Register :=
  dialect.operations.flatMap Operation.provisions

/-- The registers that operations share beside those of the user.  The first
request for each name counts. -/
def provisioned (dialect : Dialect) : RegisterBank :=
  RegisterBank.empty.provisionAll dialect.requested

/-- The machine on which every program of the dialect starts. -/
def machine (dialect : Dialect) : Machine :=
  .ofRegisters dialect.registers dialect.requested

/-- The contents of the user registers. -/
def results (dialect : Dialect) (machine : Machine) : List Cell :=
  dialect.registers.map fun name => (machine.read? name).getD default

/-- Why `name` is no reference to a register, if it is none. -/
def referenceFault? (dialect : Dialect) (name : Name) : Option Fault :=
  match dialect.entry? name with
  | some .register => none
  | some (.operation _) => some (.notARegister name)
  | none => some (.unknownName name)

/-- The argument that refers to the register `name`. -/
def reference (dialect : Dialect) (name : Name) : Except Fault Argument :=
  match dialect.referenceFault? name with
  | some fault => .error fault
  | none => .ok (.register name)

end Dialect

end RegisterMachine

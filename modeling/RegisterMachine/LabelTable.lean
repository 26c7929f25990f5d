import RegisterMachine.Word

/-!
# Label tables

A label table records an address for each label that has been defined.  The
address of a label is that of the instruction queued just before it, which is
`-1` for a label in front of every instruction, so addresses are words.

Bindings are kept in strictly increasing order of names.  Hence a table is
determined by the addresses it records, and two tables are equal exactly when
every label has the same address in both (`LabelTable.ext_get?`), whatever
insertions built them.
-/

namespace RegisterMachine

/-- A finite map from labels to addresses, listed by increasing label. -/
structure LabelTable where
  bindings : List (Name × Word)
  sorted : bindings.Pairwise fun first second => first.1 < second.1
deriving DecidableEq

namespace LabelTable

def empty : LabelTable :=
  ⟨[], .nil⟩

instance : Inhabited LabelTable :=
  ⟨empty⟩

def get? (table : LabelTable) (label : Name) : Option Word :=
  table.bindings.lookup label

/-- The bindings with `label` recorded at `address`: a new binding is put in
its place by name, an existing one is replaced. -/
def bindAmong (label : Name) (address : Word) :
    List (Name × Word) → List (Name × Word)
  | [] => [(label, address)]
  | (other, recorded) :: rest =>
    if label < other then (label, address) :: (other, recorded) :: rest
    else if other < label then (other, recorded) :: bindAmong label address rest
    else (label, address) :: rest

theorem mem_bindAmong {label : Name} {address : Word} {binding : Name × Word}
    {bindings : List (Name × Word)}
    (isMember : binding ∈ bindAmong label address bindings) :
    binding = (label, address) ∨ binding ∈ bindings := by
  induction bindings with
  | nil => exact Or.inl (List.mem_singleton.1 isMember)
  | cons head rest induction =>
    unfold bindAmong at isMember
    split at isMember
    next => exact List.mem_cons.1 isMember
    next =>
      split at isMember
      next =>
        rcases List.mem_cons.1 isMember with isHead | inRest
        · exact Or.inr (List.mem_cons.2 (Or.inl isHead))
        · exact (induction inRest).imp_right (List.mem_cons_of_mem _)
      next =>
        exact (List.mem_cons.1 isMember).imp_right (List.mem_cons_of_mem _)

theorem sorted_bindAmong (label : Name) (address : Word)
    {bindings : List (Name × Word)}
    (sorted : bindings.Pairwise fun first second => first.1 < second.1) :
    (bindAmong label address bindings).Pairwise
      fun first second => first.1 < second.1 := by
  induction bindings with
  | nil => simp [bindAmong]
  | cons head rest induction =>
    obtain ⟨other, recorded⟩ := head
    obtain ⟨headFirst, restSorted⟩ := List.pairwise_cons.1 sorted
    unfold bindAmong
    split
    next labelFirst =>
      refine List.pairwise_cons.2 ⟨fun binding isMember => ?_, sorted⟩
      rcases List.mem_cons.1 isMember with rfl | inRest
      · exact labelFirst
      · exact String.lt_trans labelFirst (headFirst binding inRest)
    next =>
      split
      next otherFirst =>
        refine List.pairwise_cons.2
          ⟨fun binding isMember => ?_, induction restSorted⟩
        rcases mem_bindAmong isMember with rfl | inRest
        · exact otherFirst
        · exact headFirst binding inRest
      next notLabelFirst notOtherFirst =>
        have same : label = other :=
          String.le_antisymm (String.not_lt.1 notOtherFirst)
            (String.not_lt.1 notLabelFirst)
        subst same
        exact List.pairwise_cons.2 ⟨headFirst, restSorted⟩

/-- Records `address` for `label`.  A later address replaces an earlier one,
which is told. -/
def record (table : LabelTable) (label : Name) (address : Word) :
    LabelTable × Option Word :=
  (⟨bindAmong label address table.bindings,
    sorted_bindAmong label address table.sorted⟩, table.get? label)

/-- The table after `address` has been recorded for `label`. -/
def insert (table : LabelTable) (label : Name) (address : Word) : LabelTable :=
  (table.record label address).1

/-- The table that results from recording `entries` from left to right. -/
def ofEntries (entries : List (Name × Word)) : LabelTable :=
  entries.foldl (fun table entry => table.insert entry.1 entry.2) empty

def size (table : LabelTable) : Nat :=
  table.bindings.length

def isEmpty (table : LabelTable) : Bool :=
  table.bindings.isEmpty

/-- Entries are listed by address, and by name at the same address. -/
def listedBefore (first second : Name × Word) : Bool :=
  first.2 < second.2 || (first.2 == second.2 && first.1 < second.1)

/-- Puts an entry in its place in a list of entries. -/
def place (entry : Name × Word) : List (Name × Word) → List (Name × Word)
  | [] => [entry]
  | other :: rest =>
    if listedBefore other entry then other :: place entry rest
    else entry :: other :: rest

/-- All labels with their addresses, in the order in which they are listed. -/
def entries (table : LabelTable) : List (Name × Word) :=
  table.bindings.foldr place []

/-- The text of one entry, such as `start: -1`. -/
def entryText (entry : Name × Word) : String :=
  entry.1 ++ ": " ++ Word.text entry.2

/-- The entries between braces, such as `{start: -1, finish: 8}`. -/
def text (table : LabelTable) : String :=
  "\x7b" ++ ", ".intercalate (table.entries.map entryText) ++ "\x7d"

theorem lookup_cons_eq (label : Name) (address : Word) (wanted : Name)
    (rest : List (Name × Word)) :
    ((label, address) :: rest).lookup wanted =
      if wanted = label then some address else rest.lookup wanted := by
  by_cases same : wanted = label
  · simp [same]
  · have distinct : (wanted == label) = false := beq_false_of_ne same
    simp [List.lookup_cons, distinct, same]

theorem lookup_bindAmong (label : Name) (address : Word) (wanted : Name)
    (bindings : List (Name × Word)) :
    (bindAmong label address bindings).lookup wanted =
      if wanted = label then some address
      else bindings.lookup wanted := by
  induction bindings with
  | nil => exact lookup_cons_eq label address wanted []
  | cons head rest induction =>
    obtain ⟨other, recorded⟩ := head
    unfold bindAmong
    split
    next => exact lookup_cons_eq label address wanted _
    next notLabelFirst =>
      split
      next otherFirst =>
        have distinct : label ≠ other := by
          rintro rfl
          exact notLabelFirst otherFirst
        rw [lookup_cons_eq, lookup_cons_eq, induction]
        by_cases isLabel : wanted = label
        · simp [isLabel, distinct]
        · simp [isLabel]
      next notOtherFirst =>
        have same : label = other :=
          String.le_antisymm (String.not_lt.1 notOtherFirst)
            (String.not_lt.1 notLabelFirst)
        subst same
        rw [lookup_cons_eq, lookup_cons_eq]
        by_cases isLabel : wanted = label <;> simp [isLabel]

/-- An insertion changes the address of its own label only. -/
@[simp]
theorem get?_insert (table : LabelTable) (label : Name) (address : Word)
    (wanted : Name) :
    (table.insert label address).get? wanted =
      if wanted = label then some address else table.get? wanted :=
  lookup_bindAmong label address wanted table.bindings

theorem lookup_eq_none_of_first {label : Name} {bindings : List (Name × Word)}
    (first : ∀ binding ∈ bindings, label < binding.1) :
    bindings.lookup label = none := by
  rw [List.lookup_eq_none_iff]
  intro binding isMember
  have before := first binding isMember
  simp only [bne_iff_ne]
  rintro rfl
  exact String.lt_irrefl _ before

theorem label_of_lookup_cons {label other : Name} {address recorded : Word}
    {left right : List (Name × Word)}
    (rightFirst : ∀ binding ∈ right, other < binding.1)
    (agree : ((label, address) :: left).lookup label =
      ((other, recorded) :: right).lookup label) :
    ¬ label < other := by
  intro before
  have absent : right.lookup label = none :=
    lookup_eq_none_of_first fun binding isMember =>
      String.lt_trans before (rightFirst binding isMember)
  have distinct : label ≠ other := by
    rintro rfl
    exact String.lt_irrefl _ before
  simp [lookup_cons_eq, distinct, absent] at agree

theorem bindings_ext {left right : List (Name × Word)}
    (leftSorted : left.Pairwise fun first second => first.1 < second.1)
    (rightSorted : right.Pairwise fun first second => first.1 < second.1)
    (agree : ∀ label, left.lookup label = right.lookup label) :
    left = right := by
  induction left generalizing right with
  | nil =>
    cases right with
    | nil => rfl
    | cons head rest =>
      obtain ⟨label, address⟩ := head
      have atHead := agree label
      simp at atHead
  | cons leftHead leftRest induction =>
    obtain ⟨leftLabel, leftAddress⟩ := leftHead
    cases right with
    | nil =>
      have atHead := agree leftLabel
      simp at atHead
    | cons rightHead rightRest =>
      obtain ⟨rightLabel, rightAddress⟩ := rightHead
      obtain ⟨leftFirst, leftRestSorted⟩ := List.pairwise_cons.1 leftSorted
      obtain ⟨rightFirst, rightRestSorted⟩ := List.pairwise_cons.1 rightSorted
      have sameLabel : leftLabel = rightLabel :=
        String.le_antisymm
          (String.not_lt.1
            (label_of_lookup_cons leftFirst (agree rightLabel).symm))
          (String.not_lt.1 (label_of_lookup_cons rightFirst (agree leftLabel)))
      subst sameLabel
      have sameAddress : leftAddress = rightAddress := by
        have atHead := agree leftLabel
        simpa [lookup_cons_eq] using atHead
      have sameRest : leftRest = rightRest := by
        refine induction leftRestSorted rightRestSorted fun label => ?_
        by_cases isHead : label = leftLabel
        · rw [isHead, lookup_eq_none_of_first leftFirst,
            lookup_eq_none_of_first rightFirst]
        · have atLabel := agree label
          simpa [lookup_cons_eq, isHead] using atLabel
      rw [sameAddress, sameRest]

/-- A table is determined by the addresses it records. -/
theorem ext_get? {left right : LabelTable}
    (agree : ∀ label, left.get? label = right.get? label) : left = right := by
  obtain ⟨leftBindings, leftSorted⟩ := left
  obtain ⟨rightBindings, rightSorted⟩ := right
  have same : leftBindings = rightBindings :=
    bindings_ext leftSorted rightSorted agree
  subst same
  rfl

theorem place_perm (entry : Name × Word) (listed : List (Name × Word)) :
    (place entry listed).Perm (entry :: listed) := by
  induction listed with
  | nil => exact .refl _
  | cons other rest induction =>
    unfold place
    split
    · exact (induction.cons other).trans (.swap entry other rest)
    · exact .refl _

theorem foldr_place_perm (bindings : List (Name × Word)) :
    (bindings.foldr place []).Perm bindings := by
  induction bindings with
  | nil => exact .refl _
  | cons entry rest induction =>
    exact (place_perm entry _).trans (induction.cons entry)

/-- The entries are the bindings in another order. -/
theorem entries_perm (table : LabelTable) :
    table.entries.Perm table.bindings :=
  foldr_place_perm table.bindings

end LabelTable

end RegisterMachine

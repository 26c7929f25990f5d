import Mathlib.Data.List.Dedup
import Mathlib.Data.List.Sort
import RegisterMachine.Proofs.NameOrder
import RegisterMachine.Proofs.Relabelling

/-!
# Listings of label tables

A label table forgets everything about its history but the last address of each
label.  It is listed by increasing address, and labels at the same address by
their bytes.  No two entries are equal in this order, so the listing does not
depend on the order in which labels were recorded or are taken from the table,
and a table can be told from its listing.
-/

namespace RegisterMachine

namespace LabelTable

variable {first second third entry : Name × Word}
  {history listed : List (Name × Word)} {table : LabelTable} {label : Name}
  {address : Word}

/-- An entry stands before another one in a listing if its address is lower, or
if the addresses are the same and the bytes of its label come first. -/
def Precedes (first second : Name × Word) : Prop :=
  first.2 < second.2 ∨
    first.2 = second.2 ∧ Name.bytes first.1 < Name.bytes second.1

theorem listedBefore_iff :
    listedBefore first second = true ↔ Precedes first second := by
  simp [listedBefore, Precedes, Name.bytes_lt_bytes_iff]

theorem Precedes.trans (earlier : Precedes first second)
    (later : Precedes second third) : Precedes first third := by
  rcases earlier with lower | ⟨same, before⟩
  · rcases later with lowerStill | ⟨sameThird, _⟩
    · exact .inl (Int64.lt_trans lower lowerStill)
    · exact .inl (sameThird ▸ lower)
  · rcases later with lower | ⟨sameThird, beforeThird⟩
    · exact .inl (same ▸ lower)
    · exact .inr ⟨same.trans sameThird, List.lt_trans before beforeThird⟩

instance : Std.Irrefl Precedes where
  irrefl := by
    rintro entry (lower | ⟨_, before⟩)
    · exact Int64.lt_irrefl lower
    · exact List.lt_irrefl _ before

instance : Std.Antisymm Precedes where
  antisymm := fun first _ earlier later =>
    absurd (earlier.trans later) (Std.Irrefl.irrefl first)

/-- Of two entries one stands before the other. -/
theorem precedes_of_not (different : first ≠ second)
    (notAfter : ¬ Precedes second first) : Precedes first second := by
  simp only [Precedes, Name.bytes_lt_bytes_iff] at notAfter ⊢
  rw [not_or, not_and] at notAfter
  rcases Int64.lt_or_eq_of_le (Int64.not_lt.1 notAfter.1) with lower | same
  · exact .inl lower
  · refine .inr ⟨same, ?_⟩
    by_contra notBefore
    have sameName : first.1 = second.1 := String.le_antisymm
      (String.not_lt.1 (notAfter.2 same.symm)) (String.not_lt.1 notBefore)
    exact different (Prod.ext sameName same)

theorem mem_place {other : Name × Word} :
    other ∈ place entry listed ↔ other = entry ∨ other ∈ listed := by
  rw [(place_perm entry listed).mem_iff, List.mem_cons]

/-- A new entry is put where it belongs. -/
theorem pairwise_place (sorted : listed.Pairwise Precedes)
    (isNew : entry ∉ listed) : (place entry listed).Pairwise Precedes := by
  induction listed with
  | nil => exact List.pairwise_singleton _ _
  | cons other rest induction =>
    obtain ⟨otherFirst, restSorted⟩ := List.pairwise_cons.1 sorted
    rw [List.mem_cons, not_or] at isNew
    obtain ⟨different, newInRest⟩ := isNew
    rw [place]
    split
    next before =>
      refine List.pairwise_cons.2 ⟨fun later isLater => ?_,
        induction restSorted newInRest⟩
      rcases mem_place.1 isLater with rfl | inRest
      · exact listedBefore_iff.1 before
      · exact otherFirst later inRest
    next notBefore =>
      rw [listedBefore_iff] at notBefore
      have entryFirst := precedes_of_not different notBefore
      refine List.pairwise_cons.2 ⟨fun later isLater => ?_, sorted⟩
      rcases List.mem_cons.1 isLater with rfl | inRest
      · exact entryFirst
      · exact entryFirst.trans (otherFirst later inRest)

theorem pairwise_foldr_place (distinct : listed.Nodup) :
    (listed.foldr place []).Pairwise Precedes := by
  induction listed with
  | nil => exact .nil
  | cons entry rest induction =>
    obtain ⟨isNew, restDistinct⟩ := List.nodup_cons.1 distinct
    refine pairwise_place (induction restDistinct) ?_
    rwa [(foldr_place_perm rest).mem_iff]

theorem nodup_bindings (table : LabelTable) : table.bindings.Nodup :=
  table.nodup_labels.of_map

theorem pairwise_entries (table : LabelTable) :
    table.entries.Pairwise Precedes :=
  pairwise_foldr_place table.nodup_bindings

theorem nodup_labels_entries (table : LabelTable) :
    (table.entries.map Prod.fst).Nodup :=
  (table.entries_perm.map Prod.fst).nodup_iff.2 table.nodup_labels

theorem mem_entries_iff :
    (label, address) ∈ table.entries ↔ table.get? label = some address := by
  rw [table.entries_perm.mem_iff, get?_eq_some_iff_mem]

/-- In whatever order the bindings of a table are taken, putting them in their
places lists its entries. -/
theorem foldr_place_eq_entries (distinct : (listed.map Prod.fst).Nodup)
    (same : ∀ label address,
      (label, address) ∈ listed ↔ table.get? label = some address) :
    listed.foldr place [] = table.entries := by
  refine (pairwise_foldr_place distinct.of_map).eq_of_mem_iff
    table.pairwise_entries ?_
  rintro ⟨label, address⟩
  rw [(foldr_place_perm listed).mem_iff, same, mem_entries_iff]

/-- A table is rebuilt from its entries, in whatever order. -/
theorem ofEntries_of_perm (anyOrder : listed.Perm table.entries) :
    ofEntries listed = table := by
  have distinct : (listed.map Prod.fst).Nodup :=
    (anyOrder.map Prod.fst).nodup_iff.2 table.nodup_labels_entries
  refine ext_get? fun label => Option.ext fun address => ?_
  rw [get?_ofEntries_eq_some_iff distinct, anyOrder.mem_iff, mem_entries_iff]

theorem entries_inj {first second : LabelTable} :
    first.entries = second.entries ↔ first = second := by
  constructor
  · intro same
    rw [← ofEntries_of_perm (.refl first.entries), same,
      ofEntries_of_perm (.refl second.entries)]
  · rintro rfl
    rfl

/-- The last entry for the label has this address. -/
def LastAddress (history : List (Name × Word)) (label : Name)
    (address : Word) : Prop :=
  ∃ earlier later, history = earlier ++ (label, address) :: later ∧
    ∀ entry ∈ later, entry.1 ≠ label

theorem get?_ofEntries_iff_last :
    (ofEntries history).get? label = some address ↔
      LastAddress history label address := by
  rw [get?_ofEntries, List.lookup_eq_some_iff]
  constructor
  · rintro ⟨later, earlier, reversed, otherLabels⟩
    refine ⟨earlier.reverse, later.reverse, ?_, fun entry isLater => ?_⟩
    · rw [← history.reverse_reverse, reversed]
      simp
    · have different := otherLabels entry (List.mem_reverse.1 isLater)
      exact (bne_iff_ne.1 different).symm
  · rintro ⟨earlier, later, rfl, otherLabels⟩
    refine ⟨later.reverse, earlier.reverse, by simp, fun entry isLater => ?_⟩
    exact bne_iff_ne.2 (otherLabels entry (List.mem_reverse.1 isLater)).symm

theorem lookup_eq_none_iff_not_mem {entries : List (Name × Word)} :
    entries.lookup label = none ↔ label ∉ entries.map Prod.fst := by
  rw [List.lookup_eq_none_iff]
  simp only [bne_iff_ne, List.mem_map, not_exists, not_and]
  exact forall₂_congr fun _ _ => ne_comm

theorem get?_ofEntries_eq_none_iff :
    (ofEntries history).get? label = none ↔ label ∉ history.map Prod.fst := by
  rw [get?_ofEntries, lookup_eq_none_iff_not_mem, List.map_reverse,
    List.mem_reverse]

/-- The size of a table is the number of labels that have been recorded. -/
theorem size_ofEntries (history : List (Name × Word)) :
    (ofEntries history).size = (history.map Prod.fst).dedup.length := by
  have sameLabels : ((ofEntries history).bindings.map Prod.fst).Perm
      (history.map Prod.fst).dedup := by
    rw [List.perm_ext_iff_of_nodup (nodup_labels _) (List.nodup_dedup _)]
    intro label
    rw [List.mem_dedup, ← not_iff_not, ← lookup_eq_none_iff_not_mem,
      ← get?_ofEntries_eq_none_iff, get?]
  rw [← sameLabels.length_eq, List.length_map, size]

/-- Records entries from left to right and tells what each of them replaces. -/
def recordAll : LabelTable → List (Name × Word) → LabelTable × List (Option Word)
  | table, [] => (table, [])
  | table, entry :: rest =>
    let recorded := table.record entry.1 entry.2
    let final := recorded.1.recordAll rest
    (final.1, recorded.2 :: final.2)

theorem recordAll_eq (table : LabelTable) (history : List (Name × Word)) :
    table.recordAll history =
      (history.foldl (fun table entry => table.insert entry.1 entry.2) table,
        history.mapIdx fun position entry =>
          ((history.take position).foldl
            (fun table entry => table.insert entry.1 entry.2) table).get?
              entry.1) := by
  induction history generalizing table with
  | nil => rfl
  | cons entry rest induction =>
    rw [recordAll, induction, List.mapIdx_cons]
    rfl

/-- What a table knows after a history of records, and what each of them has
told. -/
structure Remembers (history : List (Name × Word)) (table : LabelTable)
    (replaced : List (Option Word)) : Prop where
  recorded : ∀ label address,
    table.get? label = some address ↔ LastAddress history label address
  unrecorded : ∀ label,
    table.get? label = none ↔ label ∉ history.map Prod.fst
  count : replaced.length = history.length
  replaced : ∀ position label address,
    history[position]? = some (label, address) →
      ∃ told, replaced[position]? = some told ∧
        ∀ previous, told = some previous ↔
          LastAddress (history.take position) label previous
  size : table.size = (history.map Prod.fst).dedup.length

/-- How a table that results from a history is listed: its entries are sorted,
and they tell each label once with its last address.  What tells the same in
another order is sorted into them, and the table can be recorded again from
them in any order. -/
structure Lists (history : List (Name × Word)) (table : LabelTable) :
    Prop where
  sorted : table.entries.Pairwise Precedes
  distinct : (table.entries.map Prod.fst).Nodup
  current : ∀ label address,
    (label, address) ∈ table.entries ↔ LastAddress history label address
  sorts : ∀ listed : List (Name × Word), (listed.map Prod.fst).Nodup →
    (∀ label address,
      (label, address) ∈ listed ↔ LastAddress history label address) →
    listed.foldr place [] = table.entries
  rebuilds : ∀ listed, listed.Perm table.entries → ofEntries listed = table

theorem remembers_recordAll (history : List (Name × Word)) :
    (empty.recordAll history).1 = ofEntries history ∧
      Remembers history (ofEntries history) (empty.recordAll history).2 := by
  rw [recordAll_eq]
  refine ⟨rfl, fun _ _ => get?_ofEntries_iff_last,
    fun _ => get?_ofEntries_eq_none_iff, List.length_mapIdx, ?_,
    size_ofEntries history⟩
  intro position label address atPosition
  refine ⟨(ofEntries (history.take position)).get? label, ?_,
    fun _ => get?_ofEntries_iff_last⟩
  rw [List.getElem?_mapIdx, atPosition]
  rfl

theorem lists_ofEntries (history : List (Name × Word)) :
    Lists history (ofEntries history) where
  sorted := pairwise_entries _
  distinct := nodup_labels_entries _
  current := by
    intro label address
    rw [mem_entries_iff, get?_ofEntries_iff_last]
  sorts := by
    intro listed distinct same
    refine foldr_place_eq_entries distinct fun label address => ?_
    rw [same, get?_ofEntries_iff_last]
  rebuilds := fun _ => ofEntries_of_perm

/-- Tables are equal when their histories leave the same address to each
label. -/
theorem ofEntries_eq_iff {other : List (Name × Word)} :
    ofEntries history = ofEntries other ↔ ∀ label address,
      LastAddress history label address ↔ LastAddress other label address := by
  simp only [← get?_ofEntries_iff_last]
  constructor
  · intro same label address
    rw [same]
  · intro same
    exact ext_get? fun label => Option.ext fun address => same label address

/-- A label table records the last address of each label that its history tells,
and it lists them in one way.  Two histories lead to the same table, with the
same entries and the same text, exactly when they leave the same address to
each label. -/
theorem label_table_is_canonical (history other : List (Name × Word)) :
    (empty.recordAll history).1 = ofEntries history ∧
      Remembers history (ofEntries history) (empty.recordAll history).2 ∧
      Lists history (ofEntries history) ∧
      (ofEntries history = ofEntries other ↔ ∀ label address,
        LastAddress history label address ↔ LastAddress other label address) ∧
      (ofEntries history = ofEntries other ↔
        (ofEntries history).entries = (ofEntries other).entries) ∧
      (ofEntries history = ofEntries other →
        (ofEntries history).text = (ofEntries other).text) := by
  obtain ⟨isTable, remembers⟩ := remembers_recordAll history
  exact ⟨isTable, remembers, lists_ofEntries history, ofEntries_eq_iff,
    entries_inj.symm, congrArg text⟩

/-- A label that moves twice, and others at one address. -/
def movesTwice : List (Name × Word) :=
  [("z", 4), ("top", 0), ("é", 4), ("top", 7), ("", -1), ("top", 4)]

/-- The same addresses in another order, and without the moves. -/
def movesNever : List (Name × Word) :=
  [("top", 4), ("", -1), ("é", 4), ("z", 4)]

theorem movesTwice_and_movesNever_lead_to_one_table :
    (∃ told, (empty.recordAll movesTwice).2[5]? = some told ∧
        ∀ previous, told = some previous ↔
          LastAddress (movesTwice.take 5) "top" previous) ∧
      ofEntries movesTwice = ofEntries movesNever ∧
      (ofEntries movesTwice).entries =
        [("", -1), ("top", 4), ("z", 4), ("é", 4)] ∧
      (ofEntries movesTwice).text = (ofEntries movesNever).text := by
  obtain ⟨_, remembers, _, _, sameEntries, sameText⟩ :=
    label_table_is_canonical movesTwice movesNever
  have listed : (ofEntries movesTwice).entries =
      [("", -1), ("top", 4), ("z", 4), ("é", 4)] := by decide
  have otherListed : (ofEntries movesNever).entries =
      [("", -1), ("top", 4), ("z", 4), ("é", 4)] := by decide
  have same := sameEntries.2 (listed.trans otherListed.symm)
  exact ⟨remembers.replaced 5 "top" 4 rfl, same, listed, sameText same⟩

end LabelTable

end RegisterMachine

import RegisterMachine.Word

/-!
# The order of names

Names are compared character by character, and their bytes are those of UTF-8.
A greater character has greater bytes: its first byte is greater if it is
longer, and characters of the same length differ in a digit that is written into
one of the bytes.  So names are ordered as their bytes are.
-/

namespace RegisterMachine

namespace Name

/-- The bytes of a name. -/
def bytes (name : Name) : List UInt8 :=
  name.toUTF8.data.toList

theorem bytes_eq (name : Name) :
    bytes name = name.toList.flatMap String.utf8EncodeChar := by
  rw [bytes, String.toUTF8, ← String.utf8Encode_toList, List.utf8Encode,
    List.toList_data_toByteArray]

/-- The bytes of a smaller character come first, whatever follows them. -/
theorem encode_lt_encode {first second : Char} (before : first < second)
    (firstRest secondRest : List UInt8) :
    String.utf8EncodeChar first ++ firstRest <
      String.utf8EncodeChar second ++ secondRest := by
  have smaller : first.val.toNat < second.val.toNat := before
  have bound : second.val.toNat < 0x110000 := by
    rcases second.valid with low | high
    · exact Nat.lt_trans low (by decide)
    · exact high.2
  unfold String.utf8EncodeChar
  generalize first.val.toNat = low at smaller
  generalize second.val.toNat = high at smaller bound
  -- All bytes but the first one hold a digit to the base 64, so the codes are
  -- divided by 64 again and again.
  have twoDigits (code : Nat) : code / 4096 = code / 64 / 64 := by omega
  have threeDigits (code : Nat) : code / 262144 = code / 64 / 64 / 64 := by omega
  simp only [twoDigits, threeDigits]
  repeat' split
  all_goals
    simp only [List.cons_append, List.nil_append, List.cons_lt_cons_iff,
      UInt8.lt_iff_toNat_lt, ← UInt8.toNat_inj, UInt8.toNat_ofNat']
    omega

theorem flatMap_encode_lt {first second : List Char} (before : first < second) :
    first.flatMap String.utf8EncodeChar <
      second.flatMap String.utf8EncodeChar := by
  induction first generalizing second with
  | nil =>
    cases second with
    | nil => exact absurd before (List.lt_irrefl [])
    | cons character rest =>
      have notEmpty : String.utf8EncodeChar character ≠ [] :=
        String.utf8EncodeChar_ne_nil
      obtain ⟨byte, bytes, encoded⟩ := List.exists_cons_of_ne_nil notEmpty
      rw [List.flatMap_cons, encoded]
      exact List.nil_lt_cons byte _
  | cons firstHead firstRest induction =>
    cases second with
    | nil => exact absurd before (List.not_lt_nil _)
    | cons secondHead secondRest =>
      rw [List.flatMap_cons, List.flatMap_cons]
      rcases List.cons_lt_cons_iff.1 before with less | ⟨rfl, restBefore⟩
      · exact encode_lt_encode less _ _
      · exact List.append_left_lt (induction restBefore)

/-- Names are ordered as their bytes are. -/
theorem bytes_lt_bytes_iff {first second : Name} :
    bytes first < bytes second ↔ first < second := by
  have forward {first second : Name} (before : first < second) :
      bytes first < bytes second := by
    rw [bytes_eq, bytes_eq]
    exact flatMap_encode_lt before
  refine ⟨fun before => ?_, forward⟩
  by_cases isBefore : first < second
  · exact isBefore
  · by_cases isAfter : second < first
    · exact absurd before (List.lt_asymm (forward isAfter))
    · obtain rfl := String.le_antisymm (String.not_lt.1 isAfter)
        (String.not_lt.1 isBefore)
      exact absurd before (List.lt_irrefl _)

end Name

end RegisterMachine

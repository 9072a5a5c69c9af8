/-
The types of a registry stand in the order of their bytes.

* `Text.bytes`: the bytes of a text in UTF-8;
* `Text.bytes_lt_iff`: the order of texts by code points is that of their bytes;
* `Registry.Ascending`: the types of a registry are in ascending order, each once;
* `Registry.ascending_registerAll`: registering keeps that.
-/
import LeaseQueue.Registry
import Mathlib.Data.String.Basic

namespace LeaseQueue

/-! ### The order of texts -/

namespace Text

/-- The last digits of two numbers decide where the others agree. -/
lemma digit_lt {m n : Nat} (h : m < n) : m / 64 < n / 64 ∨ m / 64 = n / 64 ∧ m % 64 < n % 64 := by
  omega

/-- The first of four digits in which two numbers differ decides. -/
lemma digits_lt {m n : Nat} (h : m < n) :
    m / 262144 < n / 262144 ∨ m / 262144 = n / 262144 ∧
      (m / 4096 % 64 < n / 4096 % 64 ∨ m / 4096 % 64 = n / 4096 % 64 ∧
        (m / 64 % 64 < n / 64 % 64 ∨ m / 64 % 64 = n / 64 % 64 ∧ m % 64 < n % 64)) := by
  have hfirst : m / 262144 = m / 4096 / 64 ∧ n / 262144 = n / 4096 / 64 := by omega
  have hsecond : m / 4096 = m / 64 / 64 ∧ n / 4096 = n / 64 / 64 := by omega
  rw [hfirst.1, hfirst.2, hsecond.1, hsecond.2]
  rcases digit_lt h with h | ⟨h, hlast⟩
  · rcases digit_lt h with h | ⟨h, hlast⟩
    · rcases digit_lt h with h | ⟨h, hlast⟩ <;> omega
    · omega
  · omega

/-- A byte with a digit behind its mark. -/
lemma marked_mod (digit : Nat) :
    (digit % 8 + 240) % 256 = digit % 8 + 240 ∧ (digit % 64 + 128) % 256 = digit % 64 + 128 := by
  omega

/-- A character with a smaller code point has smaller bytes, whatever follows. -/
lemma encode_append_lt {c d : Char} (h : c < d) (xs ys : List UInt8) :
    String.utf8EncodeChar c ++ xs < String.utf8EncodeChar d ++ ys := by
  have hlt : c.val.toNat < d.val.toNat := h
  have hd : d.val.toNat < 1114112 := by
    have hvalid := d.valid
    simp only [UInt32.isValidChar, Nat.isValidChar] at hvalid
    omega
  have hdigits := digits_lt hlt
  have hfirst : c.val.toNat / 262144 % 8 = c.val.toNat / 262144 ∧
      d.val.toNat / 262144 % 8 = d.val.toNat / 262144 := by omega
  -- the marks of the first bytes are in the order of the lengths
  simp only [String.utf8EncodeChar]
  split_ifs <;>
    simp only [List.cons_append, List.nil_append, List.cons_lt_cons_iff, UInt8.lt_iff_toNat_lt,
      ← UInt8.toNat_inj, UInt8.toNat_ofNat', Nat.reducePow, marked_mod] <;>
    omega

lemma encode_lt {a b : List Char} (h : a < b) :
    a.flatMap String.utf8EncodeChar < b.flatMap String.utf8EncodeChar := by
  induction h with
  | @nil c rest =>
      obtain ⟨first, more, hfirst⟩ :=
        List.exists_cons_of_ne_nil (@String.utf8EncodeChar_ne_nil c)
      rw [List.flatMap_nil, List.flatMap_cons, hfirst]
      exact List.nil_lt_cons ..
  | rel h => exact encode_append_lt h _ _
  | cons _ ih => exact List.append_left_lt ih

/-- The bytes of a text in UTF-8. -/
def bytes (text : String) : List UInt8 := text.toList.flatMap String.utf8EncodeChar

/-- In these bytes a text is stored. -/
lemma toByteArray_bytes (text : String) : (bytes text).toByteArray = text.toUTF8 := by
  rw [String.toUTF8_eq_toByteArray, ← String.utf8Encode_toList, List.utf8Encode, bytes]

/-- Texts are in the order of their bytes. -/
theorem bytes_lt_iff {a b : String} : bytes a < bytes b ↔ a < b := by
  refine ⟨fun h => ?_, fun h => encode_lt h⟩
  rcases lt_trichotomy a b with hab | rfl | hba
  · exact hab
  · exact absurd h (List.lt_irrefl _)
  · exact absurd (List.lt_trans h (encode_lt hba)) (List.lt_irrefl _)

end Text

/-! ### The types of a registry -/

namespace Registry

variable {η : Type} {registry next : Registry η} {taskType : String} {handler : η}

/-- The types are in ascending order, each once. -/
def Ascending (registry : Registry η) : Prop := registry.types.Pairwise (· < ·)

lemma mem_place {entry : String × η} {entries : List (String × η)} :
    entry ∈ place taskType handler entries ↔ entry = (taskType, handler) ∨ entry ∈ entries := by
  induction entries with
  | nil => simp [place]
  | cons first rest ih =>
      rw [place]
      split
      · rw [List.mem_cons]
      · rw [List.mem_cons, ih, List.mem_cons, or_left_comm]

lemma find?_isSome_iff {entries : List (String × η)} :
    (find? taskType entries).isSome = true ↔ taskType ∈ entries.map Prod.fst := by
  induction entries with
  | nil => simp [find?]
  | cons entry rest ih =>
      rw [find?, List.map_cons, List.mem_cons]
      split
      · simp [*]
      · simp [*]

lemma contains_iff : registry.contains taskType = true ↔ taskType ∈ registry.types :=
  find?_isSome_iff

/-- What registering a type does, if it has no handler yet. -/
lemma register_of_not_mem (h : taskType ∉ registry.types) (handler : η) :
    registry.register taskType handler = .ok ⟨place taskType handler registry.entries⟩ := by
  rw [register, if_neg (contains_iff.not.mpr h)]

/-- And if it has one. -/
lemma register_of_mem (h : taskType ∈ registry.types) (handler : η) :
    registry.register taskType handler = .error (.alreadyRegistered taskType) := by
  rw [register, if_pos (contains_iff.mpr h)]

lemma mem_types_place {other : String} :
    other ∈ (⟨place taskType handler registry.entries⟩ : Registry η).types ↔
      other = taskType ∨ other ∈ registry.types := by
  simp only [types, List.mem_map, mem_place]
  constructor
  · rintro ⟨entry, rfl | hentry, rfl⟩
    · exact .inl rfl
    · exact .inr ⟨entry, hentry, rfl⟩
  · rintro (rfl | ⟨entry, hentry, rfl⟩)
    · exact ⟨_, .inl rfl, rfl⟩
    · exact ⟨entry, .inr hentry, rfl⟩

lemma pairwise_place {entries : List (String × η)} (h : taskType ∉ entries.map Prod.fst)
    (ascending : (entries.map Prod.fst).Pairwise (· < ·)) :
    ((place taskType handler entries).map Prod.fst).Pairwise (· < ·) := by
  induction entries with
  | nil => simp [place]
  | cons entry rest ih =>
      rw [List.map_cons, List.mem_cons, not_or] at h
      rw [List.map_cons, List.pairwise_cons] at ascending
      obtain ⟨hfirst, hrest⟩ := ascending
      rw [place]
      split
      · rename_i hlt
        refine List.pairwise_cons.mpr
          ⟨fun other hother => ?_, List.pairwise_cons.mpr ⟨hfirst, hrest⟩⟩
        rcases List.mem_cons.mp hother with rfl | hother
        · exact hlt
        · exact hlt.trans (hfirst other hother)
      · rename_i hlt
        have hgt : entry.1 < taskType := lt_of_le_of_ne (not_lt.mp hlt) (Ne.symm h.1)
        refine List.pairwise_cons.mpr ⟨fun other hother => ?_, ih h.2 hrest⟩
        obtain ⟨placed, hplaced, rfl⟩ := List.mem_map.mp hother
        rcases mem_place.mp hplaced with rfl | hplaced
        · exact hgt
        · exact hfirst _ (List.mem_map_of_mem hplaced)

lemma ascending_place (h : taskType ∉ registry.types) (ascending : registry.Ascending) :
    (⟨place taskType handler registry.entries⟩ : Registry η).Ascending :=
  pairwise_place h ascending

/-- Registering keeps the order. -/
theorem ascending_registerAll (ascending : registry.Ascending) (handlers : List (String × η)) :
    (registry.registerAll handlers).2.Ascending := by
  induction handlers generalizing registry with
  | nil => exact ascending
  | cons entry rest ih =>
      rw [registerAll]
      by_cases h : entry.1 ∈ registry.types
      · rw [register_of_mem h]
        exact ascending
      · rw [register_of_not_mem h]
        exact ih (ascending_place h ascending)

lemma ascending_empty : (empty : Registry η).Ascending := List.Pairwise.nil

end Registry
end LeaseQueue

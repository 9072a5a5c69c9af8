/-
Percent-encoding is undone by decoding, and writes no other characters than letters, digits, four
marks and `%`.

* `toList_eq_data`: the bytes of an array as a list;
* `hexValue?_hexDigit`, `decodeBytes_encodeByte`: one byte;
* `decode_encode`: a whole text;
* `not_mem_encode`: the characters that no written form holds.
-/
import LeaseQueue.Text.Percent
import Mathlib.Tactic

namespace LeaseQueue.Text.Percent

/-! ### Bytes -/

/-- The bytes of an array from a place on come behind those that are already there. -/
lemma toList_loop (bytes : ByteArray) (place : Nat) (before : List UInt8) :
    ByteArray.toList.loop bytes place before =
      before.reverse ++ bytes.data.toList.drop place := by
  fun_induction ByteArray.toList.loop bytes place before with
  | case1 place before h ih =>
      have hplace : place < bytes.data.toList.length := by simpa using h
      rw [ih, List.reverse_cons, List.append_assoc, List.drop_eq_getElem_cons hplace]
      simp [ByteArray.get!, getElem!_pos bytes.data place (by simpa using h)]
  | case2 place before h =>
      rw [List.drop_eq_nil_of_le (by simpa using h), List.append_nil]

lemma toList_eq_data (bytes : ByteArray) : bytes.toList = bytes.data.toList := by
  rw [ByteArray.toList, toList_loop]
  rfl

/-- A character of seven bits is one byte. -/
lemma toUTF8_ofByte {b : UInt8} (h : b.toNat < 128) :
    (Char.ofNat b.toNat).toString.toUTF8.toList = [b] := by
  have hval : (Char.ofNat b.toNat).val.toNat = b.toNat := by
    rw [Char.ofNat, dif_pos (.inl (by omega))]
    rfl
  have hsize : (Char.ofNat b.toNat).utf8Size = 1 := by
    rw [Char.utf8Size_eq_one_iff, UInt32.le_iff_toNat_le, hval]
    exact Nat.le_of_lt_succ h
  rw [toList_eq_data, String.toUTF8_eq_toByteArray, Char.toString, String.toByteArray_singleton,
    List.utf8Encode_singleton, List.toList_data_toByteArray,
    String.utf8EncodeChar_eq_singleton hsize]
  congr 1
  apply UInt8.toNat_inj.mp
  rw [UInt32.toNat_toUInt8, hval]
  omega

/-! ### One byte -/

lemma hexValue?_hexDigit : ∀ n < 16, hexValue? (hexDigit n) = some n := by
  decide

lemma isAlphanum_hexDigit : ∀ n < 16, (hexDigit n).isAlphanum = true := by
  decide

/-- A byte that stands for itself has seven bits. -/
lemma lt_of_isUnreserved {b : UInt8} (h : isUnreserved b = true) : b.toNat < 128 := by
  simp only [isUnreserved, Bool.or_eq_true, decide_eq_true_eq, beq_iff_eq] at h
  omega

/-- The characters of a written form. -/
def IsWritten (c : Char) : Prop :=
  c.isAlphanum = true ∨ c ∈ ['-', '.', '_', '~', '%']

instance : DecidablePred IsWritten := fun _ => inferInstanceAs (Decidable (_ ∨ _))

/-- A byte that stands for itself is one of them, and not the one that starts a pair of digits. -/
lemma isWritten_of_isUnreserved : ∀ n < 128, isUnreserved (UInt8.ofNat n) = true →
    IsWritten (Char.ofNat n) ∧ Char.ofNat n ≠ '%' := by
  decide

lemma isWritten_of_mem_encodeByte {b : UInt8} {c : Char} (h : c ∈ encodeByte b) : IsWritten c := by
  have hb := b.toNat_lt
  rw [encodeByte] at h
  split_ifs at h with hplain
  · obtain rfl := List.mem_singleton.mp h
    exact (isWritten_of_isUnreserved _ (lt_of_isUnreserved hplain) (by simpa using hplain)).1
  · simp only [List.mem_cons, List.not_mem_nil, or_false] at h
    rcases h with rfl | rfl | rfl
    · exact .inr (by decide)
    · exact .inl (isAlphanum_hexDigit _ (by omega))
    · exact .inl (isAlphanum_hexDigit _ (by omega))

/-- Behind another character than `%` reading goes on. -/
lemma decodeBytes_cons {c : Char} (h : c ≠ '%') (rest : List Char) :
    decodeBytes (c :: rest) = (decodeBytes rest).map (c.toString.toUTF8.toList ++ ·) := by
  rw [decodeBytes, if_neg h]
  rintro high low tail rfl
  exact fun _ => h rfl

/-- The written form of a byte is read as the byte. -/
lemma decodeBytes_encodeByte (b : UInt8) (rest : List Char) :
    decodeBytes (encodeByte b ++ rest) = (decodeBytes rest).map (b :: ·) := by
  rw [encodeByte]
  split_ifs with hplain
  · have hseven := lt_of_isUnreserved hplain
    have hchar := (isWritten_of_isUnreserved _ hseven (by simpa using hplain)).2
    rw [List.singleton_append, decodeBytes_cons hchar, toUTF8_ofByte hseven]
    rfl
  · have hb := b.toNat_lt
    have hvalue : UInt8.ofNat (16 * (b.toNat / 16) + b.toNat % 16) = b := by
      rw [Nat.div_add_mod, UInt8.ofNat_toNat]
    simp only [List.cons_append, List.nil_append, decodeBytes,
      hexValue?_hexDigit _ (show b.toNat / 16 < 16 by omega),
      hexValue?_hexDigit _ (show b.toNat % 16 < 16 by omega)]
    cases decodeBytes rest with
    | none => rfl
    | some bytes => exact congrArg (fun first => some (first :: bytes)) hvalue

/-! ### Texts -/

/-- The written form of bytes is read as the bytes. -/
lemma decodeBytes_encodeBytes (bytes : List UInt8) :
    decodeBytes (bytes.flatMap encodeByte) = some bytes := by
  induction bytes with
  | nil => rfl
  | cons b bytes ih => rw [List.flatMap_cons, decodeBytes_encodeByte, ih, Option.map_some]

/-- The written form of a text is read as the text. -/
theorem decode_encode (s : String) : decode (encode s) = some s := by
  have hbytes : ByteArray.mk s.toUTF8.toList.toArray = s.toUTF8 := by
    rw [toList_eq_data, Array.toArray_toList]
  rw [decode, encode, String.toList_ofList, decodeBytes_encodeBytes, Option.bind_some, hbytes,
    String.fromUTF8?, String.toUTF8_eq_toByteArray, dif_pos s.isValidUTF8]
  rfl

/-- A character that is no letter, no digit and none of the marks stands in no written form. -/
theorem not_mem_encode {c : Char} (h : ¬ IsWritten c) (s : String) : c ∉ (encode s).toList := by
  intro hmem
  rw [encode, String.toList_ofList] at hmem
  obtain ⟨b, -, hbyte⟩ := List.mem_flatMap.mp hmem
  exact h (isWritten_of_mem_encodeByte hbyte)

end LeaseQueue.Text.Percent

/-
A point in time is read from its text.

* `length_padded`, `ofDigitChars_padded`: a number with zeros in front has its width and its value;
* `readDigits?_append`: digits are read up to a width or to another character;
* `readYear?_yearText`, `readField?_padded`, `readFraction?_fractionText`: the numbers of a text;
* `ofLocal?_zero`: a time that is local to UTC is the time itself;
* `read?_text`: years before 0 and after 9999, any fraction and leap seconds included.
-/
import LeaseQueue.Time.TimestampReader
import Mathlib.Tactic

namespace LeaseQueue.Timestamp

open LeaseQueue.Text

/-! ### Digits -/

/-- A digit is no blank. -/
lemma isBlank_of_isDigit {c : Char} (h : c.isDigit = true) : isBlank c = false := by
  obtain ⟨hlow, hhigh⟩ : 48 ≤ c.toNat ∧ c.toNat ≤ 57 := Char.isDigit_iff_toNat.mp h
  simp only [isBlank, inRanges, blankRanges, List.any_cons, List.any_nil, Bool.or_false,
    Bool.or_eq_false_iff, Bool.and_eq_false_iff, decide_eq_false_iff_not]
  omega

variable {width n : Nat}

lemma isDigit_of_mem_padded {c : Char} (h : c ∈ padded width n) : c.isDigit = true := by
  rcases List.mem_append.mp h with hzero | hdigit
  · rw [List.eq_of_mem_replicate hzero]
    rfl
  · exact Nat.isDigit_of_mem_toDigits (by decide) (by decide) hdigit

/-- A number that fits is as wide as asked for. -/
lemma length_padded (hwidth : 0 < width) (h : n < 10 ^ width) :
    (padded width n).length = width := by
  have hdigits : (Nat.toDigits 10 n).length ≤ width :=
    (Nat.length_toDigits_le_iff (by decide) hwidth).mpr h
  rw [padded, List.length_append, List.length_replicate]
  exact Nat.sub_add_cancel hdigits

lemma ofDigitChars_padded : Nat.ofDigitChars 10 (padded width n) 0 = n := by
  rw [padded, Nat.ofDigitChars_append, Nat.ofDigitChars_replicate_zero, Nat.mul_zero,
    Nat.ofDigitChars_ten_toDigits]

lemma padded_ne_nil (width n : Nat) : padded width n ≠ [] := by
  simp [padded, Nat.toDigits_ne_nil]

/-- Digits are read up to a width, or to a character that is none. -/
lemma readDigits?_append {digits : List Char} (rest : List Char) (hne : digits ≠ [])
    (hdigits : ∀ c ∈ digits, c.isDigit = true) (hlength : digits.length ≤ width)
    (hrest : digits.length < width → ∀ c ∈ rest.head?, c.isDigit = false) :
    readDigits? width (digits ++ rest) = some (Nat.ofDigitChars 10 digits 0, rest) := by
  have hbehind : (rest.take (width - digits.length)).takeWhile Char.isDigit = [] := by
    cases hspace : width - digits.length with
    | zero => rfl
    | succ space =>
        cases rest with
        | nil => rfl
        | cons c rest =>
            have hc : c.isDigit = false := hrest (by omega) c rfl
            simp [hc]
  have htaken : ((digits ++ rest).take width).takeWhile Char.isDigit = digits := by
    rw [List.take_append, List.take_of_length_le hlength, List.takeWhile_append_of_pos hdigits,
      hbehind, List.append_nil]
  simp only [readDigits?, htaken, List.isEmpty_eq_false_iff.mpr hne, Bool.false_eq_true, if_false,
    List.drop_left, Nat.ofDigitChars_eq_foldl]
  rfl

/-- So is a number of some width. -/
lemma readDigits?_padded {limit : Nat} {rest : List Char} (hwidth : 0 < width)
    (hn : n < 10 ^ width) (hlimit : width ≤ limit)
    (hrest : width < limit → ∀ c ∈ rest.head?, c.isDigit = false) :
    readDigits? limit (padded width n ++ rest) = some (n, rest) := by
  have hlength : (padded width n).length = width := length_padded hwidth hn
  have hread := readDigits?_append rest (padded_ne_nil width n)
    (fun _ => isDigit_of_mem_padded) (hlength.le.trans hlimit) (by rwa [hlength])
  rwa [ofDigitChars_padded] at hread

/-! ### Numbers of a text -/

/-- A mark that is no blank. -/
lemma readMark?_cons {mark : Char} (h : isBlank mark = false) (rest : List Char) :
    readMark? mark (mark :: rest) = some rest := by
  rw [readMark?, trimStart_cons h]
  exact if_pos rfl

/-- A number of some width starts with a digit. -/
lemma exists_padded_eq_cons (width n : Nat) :
    ∃ c digits, padded width n = c :: digits ∧ c.isDigit = true := by
  obtain ⟨c, digits, h⟩ := List.exists_cons_of_ne_nil (padded_ne_nil width n)
  exact ⟨c, digits, h, isDigit_of_mem_padded (h ▸ List.mem_cons_self)⟩

/-- In front of it there is no blank. -/
lemma trimStart_padded (rest : List Char) :
    trimStart (padded width n ++ rest) = padded width n ++ rest := by
  obtain ⟨c, digits, h, hc⟩ := exists_padded_eq_cons width n
  rw [h]
  exact trimStart_cons (isBlank_of_isDigit hc) _

/-- A number of two digits within its range. -/
lemma readField?_padded {low high : Nat} (hlow : low ≤ n) (hhigh : n ≤ high) (hn : n < 100)
    (rest : List Char) : readField? low high (padded 2 n ++ rest) = some (n, rest) := by
  rw [readField?, trimStart_padded,
    readDigits?_padded (by decide) hn le_rfl (fun h => absurd h (by decide))]
  exact if_pos ⟨hlow, hhigh⟩

/-- A year without a sign has four digits. -/
lemma readYear?_padded (hn : n < 10000) (rest : List Char) :
    readYear? (padded 4 n ++ rest) = some ((n : Int), rest) := by
  have hdigits : readDigits? 4 (padded 4 n ++ rest) = some (n, rest) :=
    readDigits?_padded (by decide) hn le_rfl (fun h => absurd h (by decide))
  have hyear : isYearNumber n = true := by simp only [isYearNumber, decide_eq_true_eq]; omega
  obtain ⟨c, digits, h, hc⟩ := exists_padded_eq_cons 4 n
  have hminus : c ≠ '-' := by rintro rfl; exact absurd hc (by decide)
  have hplus : c ≠ '+' := by rintro rfl; exact absurd hc (by decide)
  rw [readYear?, trimStart_padded]
  rw [h, List.cons_append] at hdigits ⊢
  simp [hminus, hplus, hdigits, hyear]

/-- A year behind a sign has any number of digits. -/
lemma readYear?_signed (negative : Bool) (hn : n ≤ 262143) {mark : Char}
    (hmark : mark.isDigit = false) (rest : List Char) :
    readYear? ((if negative then '-' else '+') :: padded 4 n ++ mark :: rest) =
      some (if negative then -(n : Int) else n, mark :: rest) := by
  have hdigits : readDigits? (padded 4 n ++ mark :: rest).length (padded 4 n ++ mark :: rest) =
      some (n, mark :: rest) := by
    rw [readDigits?_append _ (padded_ne_nil 4 n) (fun _ => isDigit_of_mem_padded) (by simp),
      ofDigitChars_padded]
    rintro - c ⟨⟩
    exact hmark
  have hyear : isYearNumber (if negative then -(n : Int) else n) = true := by
    simp only [isYearNumber, decide_eq_true_eq]
    split <;> omega
  cases negative
  all_goals
    simp only [Bool.false_eq_true, if_false, if_true, List.cons_append] at hyear ⊢
    rw [readYear?, trimStart_cons (by decide)]
    simp only [hdigits, hyear, Option.bind_some, Bool.false_eq_true, if_false, if_true]

/-- The year, in front of a mark. -/
lemma readYear?_yearText {year : Int} (h : minYear ≤ year ∧ year ≤ maxYear) {mark : Char}
    (hmark : mark.isDigit = false) (rest : List Char) :
    readYear? (yearText year ++ mark :: rest) = some (year, mark :: rest) := by
  simp only [minYear, maxYear] at h
  rw [yearText]
  split_ifs with hplain hnegative
  · rw [readYear?_padded (by omega), Int.natAbs_of_nonneg hplain.1]
  · have hvalue : -(year.natAbs : Int) = year := by omega
    exact (readYear?_signed true (by omega) hmark rest).trans (by rw [if_pos rfl, hvalue])
  · have hvalue : (year.natAbs : Int) = year := by omega
    exact (readYear?_signed false (by omega) hmark rest).trans (by rw [if_neg (by decide), hvalue])

/-- A point and digits, in front of a mark. -/
lemma readFraction?_padded (hwidth : 0 < width) (hlimit : width ≤ 9) (hn : n < 10 ^ width)
    {mark : Char} (hmark : mark.isDigit = false) (rest : List Char) :
    readFraction? ('.' :: padded width n ++ mark :: rest) =
      some (n * 10 ^ (9 - width), mark :: rest) := by
  have hread : readDigits? 9 (padded width n ++ mark :: rest) = some (n, mark :: rest) := by
    refine readDigits?_padded hwidth hn hlimit ?_
    rintro - c ⟨⟩
    exact hmark
  have hspent : (padded width n ++ mark :: rest).length - (mark :: rest).length = width := by
    rw [List.length_append, length_padded hwidth hn, Nat.add_sub_cancel]
  rw [List.cons_append, readFraction?, hread, Option.map_some]
  dsimp only
  rw [hspent, List.dropWhile_cons_of_neg (by simp [hmark])]
  rfl

/-- The fraction, in front of a mark. -/
lemma readFraction?_fractionText {nano : Nat} (h : nano < nanosInSecond) {mark : Char}
    (hmark : mark.isDigit = false) (hpoint : mark ≠ '.') (rest : List Char) :
    readFraction? (fractionText nano ++ mark :: rest) = some (nano, mark :: rest) := by
  rw [nanosInSecond] at h
  rw [fractionText]
  split_ifs with hzero hmilli hmicro
  · subst hzero
    simp [readFraction?, hpoint]
  · have hvalue : nano / 1000000 * 10 ^ (9 - 3) = nano := by omega
    rw [readFraction?_padded (by decide) (by decide) (by omega) hmark, hvalue]
  · have hvalue : nano / 1000 * 10 ^ (9 - 6) = nano := by omega
    rw [readFraction?_padded (by decide) (by decide) (by omega) hmark, hvalue]
  · rw [readFraction?_padded (by decide) (by decide) h hmark, Nat.sub_self, Nat.pow_zero,
      Nat.mul_one]

/-- At UTC the local time is the time. -/
lemma ofLocal?_zero (t : Timestamp) :
    ofLocal? t.date t.hour t.minute t.second t.nano 0 = some t := by
  have hhour := t.hour_lt
  have hminute := t.minute_lt
  have hnotBefore : ¬ 60 * (t.hour : Int) + t.minute - 0 < 0 := by omega
  have hnotBehind : ¬ 1440 ≤ 60 * (t.hour : Int) + t.minute - 0 := by omega
  have hofDay :
      ((60 * (t.hour : Int) + t.minute - 0).fmod 1440).toNat = 60 * t.hour + t.minute := by
    rw [Int.fmod_eq_emod_of_nonneg _ (by decide)]
    omega
  have hhours : (60 * t.hour + t.minute) / 60 = t.hour := by omega
  have hminutes : (60 * t.hour + t.minute) % 60 = t.minute := by omega
  rw [ofLocal?, if_pos (by decide)]
  simp only [if_neg hnotBefore, if_neg hnotBehind, hofDay, hhours, hminutes, Option.bind_some,
    ofParts?_self]

/-! ### The whole text -/

/-- A leap second is written as second 60, and its nanoseconds are counted from there on. -/
def writtenSecond (t : Timestamp) : Nat := if nanosInSecond ≤ t.nano then t.second + 1 else t.second

def writtenNano (t : Timestamp) : Nat :=
  if nanosInSecond ≤ t.nano then t.nano - nanosInSecond else t.nano

/-- The text, part by part. -/
lemma toList_text (t : Timestamp) :
    t.text.toList =
      yearText t.date.year ++ '-' :: (padded 2 t.date.month ++ '-' :: (padded 2 t.date.day ++
        'T' :: (padded 2 t.hour ++ ':' :: (padded 2 t.minute ++ ':' ::
          (padded 2 t.writtenSecond ++ (fractionText t.writtenNano ++ ['Z'])))))) := by
  rw [text, String.toList_ofList, localText]
  simp only [List.append_assoc, List.cons_append, writtenSecond, writtenNano]

/-- A second that is written as 60 is a leap second. -/
lemma writtenSecond_eq_sixty {t : Timestamp} :
    t.writtenSecond = 60 ↔ nanosInSecond ≤ t.nano := by
  have hsecond := t.second_lt
  have hnano := t.nano_lt
  rw [writtenSecond]
  split_ifs <;> omega

lemma writtenSecond_le (t : Timestamp) : t.writtenSecond ≤ 60 := by
  have hsecond := t.second_lt
  rw [writtenSecond]
  split_ifs <;> omega

lemma writtenNano_lt (t : Timestamp) : t.writtenNano < nanosInSecond := by
  have hnano := t.nano_lt
  rw [writtenNano]
  split_ifs <;> omega

/-- The days of a month are written in two digits. -/
lemma day_le (date : Date) : date.day ≤ 31 := by
  have hdays : daysInMonth date.year date.month ≤ 31 := by
    unfold daysInMonth
    split_ifs <;> decide
  exact date.day_mem.2.trans hdays

/-- A point in time is read from its text. -/
theorem read?_text (t : Timestamp) : read? t.text = some t := by
  have hday := day_le t.date
  have hmonth := t.date.month_mem
  have hhour := t.hour_lt
  have hminute := t.minute_lt
  have hsecond := t.writtenSecond_le
  have hyears : ∀ rest, readYear? (yearText t.date.year ++ '-' :: rest) =
      some (t.date.year, '-' :: rest) := readYear?_yearText t.date.year_mem rfl
  have hmonths := readField?_padded hmonth.1 hmonth.2 (by omega)
  have hdays := readField?_padded t.date.day_mem.1 hday (by omega)
  have hhours := readField?_padded t.hour.zero_le (Nat.le_of_lt_succ hhour) (by omega)
  have hminutes := readField?_padded t.minute.zero_le (Nat.le_of_lt_succ hminute) (by omega)
  have hseconds := readField?_padded t.writtenSecond.zero_le hsecond (by omega)
  have hnanos : readFraction? (fractionText t.writtenNano ++ ['Z']) = some (t.writtenNano, ['Z']) :=
    readFraction?_fractionText t.writtenNano_lt (by decide) (by decide) []
  have hdash : ∀ rest, readMark? '-' ('-' :: rest) = some rest := readMark?_cons (by decide)
  have hcolon : ∀ rest, readMark? ':' (':' :: rest) = some rest := readMark?_cons (by decide)
  have hoffset : readOffset? (trimStart ['Z']) = some (0, []) := by
    rw [trimStart_cons (by decide)]
    rfl
  have hend : (trimStart []).isEmpty = true := rfl
  simp only [read?, toList_text, hyears, hmonths, hdays, hhours, hminutes, hseconds, hnanos, hdash,
    hcolon, hoffset, hend, Date.ofParts?_self, readSeparator?, true_or, if_true, bind,
    Option.bind_some]
  by_cases hleap : nanosInSecond ≤ t.nano
  · have hlast : t.second = 59 := (t.nano_lt.resolve_left (Nat.not_lt.mpr hleap)).2
    have hnano : nanosInSecond + t.writtenNano = t.nano := by
      rw [writtenNano, if_pos hleap, Nat.add_sub_cancel' hleap]
    rw [if_pos (writtenSecond_eq_sixty.mpr hleap), hnano, ← hlast, ofLocal?_zero]
  · rw [if_neg (mt writtenSecond_eq_sixty.mp hleap), writtenSecond, if_neg hleap, writtenNano,
      if_neg hleap, ofLocal?_zero]

end LeaseQueue.Timestamp

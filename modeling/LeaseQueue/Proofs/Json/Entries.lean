/-
Objects of given entries:

* `insertAll`: entries put in their places, one behind the other;
* `lookup_insertAll`: of distinct keys, each keeps its value;
* `pairwise_insertAll`: the keys stand in ascending order, so that each of them stands there once;
* `isSome_lookup_insertAll`: no key is lost.
-/
import LeaseQueue.Json.Basic
import Mathlib.Data.String.Basic
import Mathlib.Tactic

namespace LeaseQueue.Json

variable {key : String} {value : Json} {acc entries : List (String × Json)}

/-! ### Look-ups -/

lemma lookup_eq_none (h : key ∉ entries.map Prod.fst) : lookup key entries = none := by
  induction entries with
  | nil => rfl
  | cons entry entries ih =>
      obtain ⟨hne, hrest⟩ := not_or.mp (mt List.mem_cons.mpr h)
      rw [lookup, if_neg hne, ih hrest]

/-! ### Insertions -/

/-- Puts entries in their places among others. -/
def insertAll (acc entries : List (String × Json)) : List (String × Json) :=
  entries.foldl (fun acc entry => insert entry.1 entry.2 acc) acc

lemma ofEntries_eq (entries : List (String × Json)) :
    ofEntries entries = .object (insertAll [] entries) :=
  rfl

/-- A key that none of the entries has keeps what it had. -/
lemma lookup_insertAll_of_not_mem (h : key ∉ entries.map Prod.fst) :
    lookup key (insertAll acc entries) = lookup key acc := by
  induction entries generalizing acc with
  | nil => rfl
  | cons entry entries ih =>
      obtain ⟨hne, hrest⟩ := not_or.mp (mt List.mem_cons.mpr h)
      exact (ih hrest).trans (lookup_insert_of_ne hne _ _)

/-- Each of some distinct keys gets its value. -/
lemma lookup_insertAll (hdistinct : (entries.map Prod.fst).Nodup) (h : (key, value) ∈ entries) :
    lookup key (insertAll acc entries) = some value := by
  induction entries generalizing acc with
  | nil => exact absurd h List.not_mem_nil
  | cons entry entries ih =>
      obtain ⟨hnew, hrest⟩ := List.nodup_cons.mp hdistinct
      rcases List.mem_cons.mp h with rfl | hmem
      · exact (lookup_insertAll_of_not_mem hnew).trans (lookup_insert_self _ _ _)
      · exact ih hrest hmem

/-- A key that is inserted is found, whatever comes behind it. -/
lemma isSome_lookup_insertAll (h : key ∈ entries.map Prod.fst ∨ (lookup key acc).isSome) :
    (lookup key (insertAll acc entries)).isSome := by
  induction entries generalizing acc with
  | nil => exact h.resolve_left List.not_mem_nil
  | cons entry entries ih =>
      refine ih ?_
      by_cases hkey : key = entry.1
      · exact .inr (by rw [hkey, lookup_insert_self]; rfl)
      · rw [lookup_insert_of_ne hkey]
        exact h.imp_left fun hmem => (List.mem_cons.mp hmem).resolve_left hkey

/-! ### The order of keys -/

lemma mem_keys_insert {other : String} :
    other ∈ (insert key value entries).map Prod.fst ↔
      other = key ∨ other ∈ entries.map Prod.fst := by
  induction entries with
  | nil => simp [insert]
  | cons entry entries ih =>
      rw [insert]
      split_ifs with hless hsame
      · simp
      · simp [hsame]
      · simp only [List.map_cons, List.mem_cons, ih]
        tauto

/-- An insertion keeps the keys in ascending order. -/
lemma pairwise_insert (h : (entries.map Prod.fst).Pairwise (· < ·)) :
    ((insert key value entries).map Prod.fst).Pairwise (· < ·) := by
  induction entries with
  | nil => simp [insert]
  | cons entry entries ih =>
      obtain ⟨hfirst, hrest⟩ := List.pairwise_cons.mp h
      rw [insert]
      split_ifs with hless hsame
      · refine List.pairwise_cons.mpr ⟨fun other hmem => ?_, h⟩
        rcases List.mem_cons.mp hmem with rfl | hmem
        · exact hless
        · exact hless.trans (hfirst other hmem)
      · exact hsame ▸ h
      · refine List.pairwise_cons.mpr ⟨fun other hmem => ?_, ih hrest⟩
        rcases mem_keys_insert.mp hmem with rfl | hmem
        · exact lt_of_le_of_ne (not_lt.mp hless) (Ne.symm hsame)
        · exact hfirst other hmem

lemma pairwise_insertAll (h : (acc.map Prod.fst).Pairwise (· < ·)) :
    ((insertAll acc entries).map Prod.fst).Pairwise (· < ·) := by
  induction entries generalizing acc with
  | nil => exact h
  | cons entry entries ih => exact ih (pairwise_insert h)

/-- Of the keys of an object of given entries none stands there twice. -/
lemma nodup_insertAll (entries : List (String × Json)) :
    ((insertAll [] entries).map Prod.fst).Nodup :=
  (pairwise_insertAll (by simp)).imp ne_of_lt

end LeaseQueue.Json

/-
The values that come back from a column as they were written.

* `Json.Kept`: the values that are not nested too deep, whose doubles come back as themselves, and
  in which no object has the mark as its first key in the column;
* `Json.readColumn?_eq_self_iff`: these come back as they are, and no others.
-/
import LeaseQueue.Json.Column
import LeaseQueue.Proofs.Json.Embedded

namespace LeaseQueue.Json

/-- The value comes back as it is from a column that reads so many levels. -/
inductive Kept : Nat → Json → Prop where
  | null {depth : Nat} : Kept depth .null
  | bool {depth : Nat} (b : Bool) : Kept depth (.bool b)
  | int {depth : Nat} (n : Int) : Kept depth (.int n)
  | double {depth : Nat} {x : Double} (h : readNumeric? x = some (.double x)) :
      Kept depth (.double x)
  | string {depth : Nat} (s : String) : Kept depth (.string s)
  | array {depth : Nat} {items : List Json} (hdepth : 1 < depth)
      (h : ∀ item ∈ items, Kept (depth - 1) item) : Kept depth (.array items)
  | object {depth : Nat} {entries : List (String × Json)} (hdepth : 1 < depth)
      (hmark : atColumnMark? entries = none) (h : ∀ entry ∈ entries, Kept (depth - 1) entry.2) :
      Kept depth (.object entries)

variable {depth : Nat}

lemma readColumnItems?_eq_self_iff {items : List Json} :
    readColumnItems? depth items = some items ↔
      ∀ item ∈ items, readColumn? depth item = some item := by
  induction items with
  | nil => simp [readColumnItems?]
  | cons item items ih =>
      rw [List.forall_mem_cons, ← ih, readColumnItems?]
      cases readColumn? depth item <;> cases readColumnItems? depth items <;> simp

lemma readColumnEntries?_eq_self_iff {entries : List (String × Json)} :
    readColumnEntries? depth entries = some entries ↔
      ∀ entry ∈ entries, readColumn? depth entry.2 = some entry.2 := by
  induction entries with
  | nil => simp [readColumnEntries?]
  | cons entry entries ih =>
      obtain ⟨key, value⟩ := entry
      rw [List.forall_mem_cons, ← ih, readColumnEntries?]
      cases readColumn? depth value <;> cases readColumnEntries? depth entries <;> simp

lemma lookup_of_atColumnMark? {entries : List (String × Json)} {inside : Json}
    (h : atColumnMark? entries = some inside) : lookup mark entries = some inside := by
  rw [atColumnMark?] at h
  split_ifs at h
  exact h

/-- The values that come back as they are. -/
theorem readColumn?_eq_self_iff (value : Json) :
    ∀ depth, readColumn? depth value = some value ↔ value.Kept depth := by
  induction value using ind with
  | null => exact fun _ => ⟨fun _ => .null, fun _ => rfl⟩
  | bool b => exact fun _ => ⟨fun _ => .bool b, fun _ => rfl⟩
  | int n => exact fun _ => ⟨fun _ => .int n, fun _ => rfl⟩
  | double x => exact fun _ => ⟨.double, fun | .double h => h⟩
  | string s => exact fun _ => ⟨fun _ => .string s, fun _ => rfl⟩
  | array items ih =>
      intro depth
      have hitems : readColumn? depth (.array items) = some (.array items) ↔
          1 < depth ∧ readColumnItems? (depth - 1) items = some items := by
        rw [readColumn?]
        split_ifs with hdeep
        · simp [hdeep]
        · cases readColumnItems? (depth - 1) items <;> simp [Nat.lt_of_not_le hdeep]
      rw [hitems, readColumnItems?_eq_self_iff]
      constructor
      · exact fun ⟨hdepth, h⟩ =>
          .array hdepth fun item hmem => (ih item hmem _).mp (h item hmem)
      · rintro (_ | _ | _ | _ | _ | ⟨hdepth, h⟩)
        exact ⟨hdepth, fun item hmem => (ih item hmem _).mpr (h item hmem)⟩
  | object entries ih =>
      intro depth
      cases hmark : atColumnMark? entries with
      | some inside =>
          refine iff_of_false (fun hread => ?_) ?_
          · rw [readColumn?, hmark] at hread
            split_ifs at hread
            change (ofMarked entries.length inside).toOption = _ at hread
            refine ofMarked_ne_self (lookup_of_atColumnMark? hmark) ?_
            cases hmarked : ofMarked entries.length inside with
            | error why => rw [hmarked] at hread; cases hread
            | ok value =>
                rw [hmarked] at hread
                rw [Option.some.inj hread]
          · rintro (_ | _ | _ | _ | _ | _ | ⟨-, hnone, -⟩)
            rw [hmark] at hnone
            cases hnone
      | none =>
          have hentries : readColumn? depth (.object entries) = some (.object entries) ↔
              1 < depth ∧ readColumnEntries? (depth - 1) entries = some entries := by
            rw [readColumn?, hmark]
            split_ifs with hdeep
            · simp [hdeep]
            · cases readColumnEntries? (depth - 1) entries <;> simp [Nat.lt_of_not_le hdeep]
          rw [hentries, readColumnEntries?_eq_self_iff]
          constructor
          · exact fun ⟨hdepth, h⟩ =>
              .object hdepth hmark fun entry hmem => (ih entry hmem _).mp (h entry hmem)
          · rintro (_ | _ | _ | _ | _ | _ | ⟨hdepth, -, h⟩)
            exact ⟨hdepth, fun entry hmem => (ih entry hmem _).mpr (h entry hmem)⟩

end LeaseQueue.Json

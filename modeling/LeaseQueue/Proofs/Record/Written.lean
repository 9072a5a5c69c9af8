/-
A record is read alike from the array of its values and from the object of its fields.

* `Shape.values?`: the values of fields from as many items;
* `Shape.found?`: the values of fields from what stands at their names;
* `Shape.addEntries_found`: entries of distinct keys are found at the names that they have;
* `Shape.ofJson_ofEntries`: the object of all fields has the record of the array of their values.

Of several fields that have no value, the object may name another one than the array. So the records
are compared, and not the faults.
-/
import LeaseQueue.Proofs.Json.Entries
import LeaseQueue.Record.OfJson

namespace LeaseQueue

section Except

variable {ε α β : Type}

lemma toOption_map (f : α → β) (result : Except ε α) :
    (result.map f).toOption = result.toOption.map f := by
  cases result <;> rfl

lemma toOption_eq_some_iff {result : Except ε α} {a : α} :
    result.toOption = some a ↔ result = .ok a := by
  cases result <;> simp [Except.toOption]

end Except

namespace Shape

/-! ### Arrays -/

/-- The values of fields from items, one for each. -/
def values? : (fields : List Field) → List Json → Option (Values fields)
  | [], [] => some ()
  | [], _ :: _ | _ :: _, [] => none
  | field :: fields, item :: items =>
    (field.kind.ofJson item).toOption.bind fun value =>
      (values? fields items).map fun values => (value, values)

lemma toOption_ofItems (shape : Shape) (all : List Json) :
    ∀ (fields : List Field) (items : List Json), items.length = fields.length →
      (ofItems shape all fields items).toOption = values? fields items
  | [], [], _ => rfl
  | field :: fields, item :: items, h => by
      have ih := toOption_ofItems shape all fields items (Nat.succ.inj h)
      rw [ofItems, values?, ← ih]
      cases field.kind.ofJson item with
      | error why => rfl
      | ok value => exact toOption_map _ _

/-! ### Objects -/

/-- The value of a field, if anything stands at its name. -/
def foundAt? (kind : Kind) : Option Json → Option (Option kind.Value)
  | none => some none
  | some value => (kind.ofJson value).toOption.map some

/-- The values of fields from what stands at their names. -/
def found? : (fields : List Field) → (String → Option Json) → Option (Found fields)
  | [], _ => some ()
  | field :: fields, look =>
    (foundAt? field.kind (look field.name)).bind fun first =>
      (found? fields look).map fun rest => (first, rest)

lemma found?_none (fields : List Field) :
    found? fields (fun _ => none) = some (Found.none fields) := by
  induction fields with
  | nil => rfl
  | cons field fields ih => rw [found?, ih]; rfl

/-- Only what stands at the names of the fields counts. -/
lemma found?_congr {fields : List Field} {look look' : String → Option Json}
    (h : ∀ field ∈ fields, look field.name = look' field.name) :
    found? fields look = found? fields look' := by
  induction fields with
  | nil => rfl
  | cons field fields ih =>
      obtain ⟨hfirst, hrest⟩ := List.forall_mem_cons.mp h
      rw [found?, found?, hfirst, ih hrest]

/-- An entry of a new key is added to what is found. -/
lemma addEntry_found {fields : List Field} (hdistinct : (fields.map Field.name).Nodup)
    {look : String → Option Json} {key : String} (hnew : look key = none) (value : Json) :
    (found? fields look).bind (fun found => (addEntry key value fields found).toOption) =
      found? fields (Function.update look key (some value)) := by
  induction fields with
  | nil => rfl
  | cons field fields ih =>
      obtain ⟨hname, hrest⟩ := List.nodup_cons.mp hdistinct
      rw [found?, found?]
      by_cases hkey : key = field.name
      · have hfirst : foundAt? field.kind (look field.name) = some none := by
          rw [← hkey, hnew, foundAt?]
        have hsame :
            found? fields (Function.update look key (some value)) = found? fields look := by
          refine found?_congr fun other hmem => Function.update_of_ne ?_ _ _
          rintro rfl
          exact hname (hkey ▸ List.mem_map_of_mem hmem)
        rw [hfirst, hsame, ← hkey, Function.update_self, foundAt?]
        cases found? fields look with
        | none => cases field.kind.ofJson value <;> rfl
        | some rest =>
            have hadded : addEntry key value (field :: fields) (none, rest) =
                (field.kind.ofJson value).map fun value => (some value, rest) := if_pos hkey
            refine (congrArg Except.toOption hadded).trans ?_
            cases field.kind.ofJson value <;> rfl
      · rw [Function.update_of_ne (Ne.symm hkey), ← ih hrest]
        cases foundAt? field.kind (look field.name) with
        | none => rfl
        | some first =>
            cases found? fields look with
            | none => rfl
            | some rest =>
                have hadded : addEntry key value (field :: fields) (first, rest) =
                    (addEntry key value fields rest).map fun rest => (first, rest) := if_neg hkey
                exact (congrArg Except.toOption hadded).trans (toOption_map _ _)

/-- Entries of distinct keys are found at the names that they have. -/
lemma addEntries_found {fields : List Field} (hdistinct : (fields.map Field.name).Nodup)
    {entries : List (String × Json)} (hkeys : (entries.map Prod.fst).Nodup)
    {look : String → Option Json} (hnew : ∀ key ∈ entries.map Prod.fst, look key = none) :
    (found? fields look).bind (fun found => (addEntries fields entries found).toOption) =
      found? fields fun name => (Json.lookup name entries).or (look name) := by
  induction entries generalizing look with
  | nil => cases hfound : found? fields look <;> exact hfound.symm
  | cons entry entries ih =>
      obtain ⟨key, value⟩ := entry
      obtain ⟨hkey, hrest⟩ := List.nodup_cons.mp hkeys
      obtain ⟨hfirst, hothers⟩ := List.forall_mem_cons.mp hnew
      have hnext : ∀ other ∈ entries.map Prod.fst,
          Function.update look key (some value) other = none := by
        intro other hmem
        have hother : other ≠ key := fun heq => hkey (heq ▸ hmem)
        rw [Function.update_of_ne hother, hothers other hmem]
      have hstep : (found? fields look).bind
            (fun found => (addEntries fields ((key, value) :: entries) found).toOption) =
          (found? fields (Function.update look key (some value))).bind
            fun found => (addEntries fields entries found).toOption := by
        rw [← addEntry_found hdistinct hfirst value, Option.bind_assoc]
        refine congrArg _ (funext fun found => ?_)
        rw [addEntries]
        cases addEntry key value fields found <;> rfl
      rw [hstep, ih hrest hnext]
      refine congrArg _ (funext fun name => ?_)
      by_cases hname : name = key
      · rw [hname, Json.lookup_eq_none hkey, Function.update_self, Json.lookup, if_pos rfl]
        rfl
      · rw [Function.update_of_ne hname, Json.lookup, if_neg hname]

/-- What is found of all fields are their values. -/
lemma complete_found {fields : List Field} {look : String → Option Json} {items : List Json}
    (h : (fields.map Field.name).map look = items.map some) :
    (found? fields look).bind (fun found => (complete fields found).toOption) =
      values? fields items := by
  induction fields generalizing items with
  | nil =>
      cases List.map_eq_nil_iff.mp h.symm
      rfl
  | cons field fields ih =>
      cases items with
      | nil => cases h
      | cons item items =>
          have hfirst : look field.name = some item := (List.cons.inj h).1
          have hrest : (fields.map Field.name).map look = items.map some := (List.cons.inj h).2
          rw [found?, values?, hfirst, foundAt?, ← ih hrest]
          cases field.kind.ofJson item with
          | error why => rfl
          | ok value =>
              cases found? fields look with
              | none => rfl
              | some rest =>
                  exact toOption_map _ (complete fields rest)

/-! ### Both forms -/

/-- An object of all fields, and of no key twice, has the values that the array of its values
has. -/
theorem ofJson_object (shape : Shape) (hdistinct : (shape.fields.map Field.name).Nodup)
    {entries : List (String × Json)} (hkeys : (entries.map Prod.fst).Nodup) {items : List Json}
    (hitems : (shape.fields.map Field.name).map (Json.lookup · entries) = items.map some) :
    (shape.ofJson (.object entries)).toOption = (shape.ofJson (.array items)).toOption := by
  have hlength : items.length = shape.fields.length := by
    simpa using (congrArg List.length hitems).symm
  have hfound : (found? shape.fields fun _ => none).bind
        (fun found => (addEntries shape.fields entries found).toOption) =
      found? shape.fields fun name => (Json.lookup name entries).or none :=
    addEntries_found hdistinct hkeys fun _ _ => rfl
  simp only [found?_none, Option.or_none, Option.bind_some] at hfound
  have hobject : (shape.ofJson (.object entries)).toOption =
      (addEntries shape.fields entries (Found.none shape.fields)).toOption.bind
        fun found => (complete shape.fields found).toOption := by
    rw [ofJson]
    cases addEntries shape.fields entries (Found.none shape.fields) <;> rfl
  rw [hobject, hfound, complete_found hitems, ← toOption_ofItems shape items _ _ hlength]
  rfl

/-- A record is read alike from the object of its fields and from the array of their values. -/
theorem ofJson_ofEntries (shape : Shape) {entries : List (String × Json)}
    (hnames : entries.map Prod.fst = shape.fields.map Field.name)
    (hdistinct : (shape.fields.map Field.name).Nodup) :
    (shape.ofJson (.ofEntries entries)).toOption =
      (shape.ofJson (.array (entries.map Prod.snd))).toOption := by
  rw [Json.ofEntries_eq]
  refine ofJson_object shape hdistinct (Json.nodup_insertAll entries) ?_
  rw [← hnames, List.map_map, List.map_map]
  exact List.map_congr_left fun entry hmem => Json.lookup_insertAll (hnames ▸ hdistinct) hmem

end Shape
end LeaseQueue
